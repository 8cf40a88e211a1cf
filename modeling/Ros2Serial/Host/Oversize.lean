import Ros2Serial.Host.Frames

/-!
# A frame that the read buffer cannot hold

`read_failed` answers `no_buffer_space` with the read of a new frame.  At that
point the read that failed still counts as outstanding, because
`AsyncReadBuffer::read` sets `read_requested_bytes_` before it looks at the
capacity.  The new read is rejected, and the session stops (`oversize_stops`).
So no session recovers (`oversize_not_recovers`).
-/

namespace Ros2Serial.Host

/-! ## Recovery -/

/-- The header is one with a good checksum, for a body beyond the capacity. -/
def OversizeHeader (capacity : Nat) (header : List UInt8) : Prop :=
  let length := SimpleCdr.getUint16 { buffer := header, offset := 0 }
  let length_checksum := length.2.getUint8
  length_checksum.1.toNat + (checksum16 length.1).toNat = 0xff ∧ capacity < length.1 + 1

instance (capacity : Nat) (header : List UInt8) : Decidable (OversizeHeader capacity header) :=
  inferInstanceAs (Decidable (_ ∧ _))

/-- The next callback is `read_id_length`, with such a header. -/
def Session.ReceivesOversize (s : Session) : Prop :=
  ∃ header buffer, s.async_read_buffer.next = some (.readIdLength, header, buffer) ∧
    OversizeHeader s.async_read_buffer.mem.length header

/-- After the callback the session is active, the read of a new frame is
accepted, and the next frame is looked up when all of its bytes have arrived. -/
def Session.Recovers (handlers : Handlers) (s : Session) : Prop :=
  ∃ s' unread, s.step handlers .run = some s' ∧ s'.active = true ∧
    s'.async_read_buffer.Wants .readSyncFirst 1 unread ∧
    ∀ frame steps s'', Fits frame → (∀ st ∈ steps, SessionStep.Undisturbed st) →
      unread ++ steps.flatMap SessionStep.arrived = Wire.encode frame.1 frame.2 →
      s'.exec handlers steps = some s'' → s''.active = true →
      s''.async_read_buffer.next = none → s''.lookups = s'.lookups ++ [frame]

theorem readIdLength_oversize {s : Session} {header : List UInt8}
    (h : OversizeHeader s.async_read_buffer.mem.length header) :
    (s.readIdLength { buffer := header, offset := 0 }).active = false := by
  obtain ⟨hgood, hcapacity⟩ := h
  have hread : ∀ callback, (s.readDepth (0 + 2)
      ((SimpleCdr.getUint16 { buffer := header, offset := 0 }).1 + 1) callback).active = false := by
    intro callback
    obtain ⟨buffer, hread⟩ := Session.readDepth_oversize hcapacity 0 callback
    rw [hread]
    exact Session.stop_inactive _
  simp only [Session.readIdLength, if_neg (not_not_intro hgood)]
  exact hread _

/-- The session stops. -/
theorem oversize_stops {handlers : Handlers} {s s' : Session} (h : s.ReceivesOversize)
    (hstep : s.step handlers .run = some s') : s'.active = false := by
  obtain ⟨header, buffer, hnext, hoversize⟩ := h
  have hmem : buffer.mem.length = s.async_read_buffer.mem.length := by
    rw [AsyncReadBuffer.next] at hnext
    split at hnext
    · cases hnext
    · simp only [Option.some.injEq, Prod.mk.injEq] at hnext
      rw [← hnext.2.2]
  simp only [Session.step] at hstep
  split at hstep
  · cases hstep
  · rw [hnext] at hstep
    obtain rfl := Option.some.inj hstep
    rw [← hmem] at hoversize
    exact readIdLength_oversize (s := { s with async_read_buffer := buffer }) hoversize

/-- No session recovers from such a header. -/
theorem oversize_not_recovers (handlers : Handlers) {s : Session} (h : s.ReceivesOversize) :
    ¬ s.Recovers handlers := by
  rintro ⟨s', unread, hstep, hactive, -⟩
  rw [oversize_stops h hstep] at hactive
  cases hactive

/-! ## A header for 8191 bytes -/

/-- The buffer holds 8191 bytes, and a payload of so many comes with a checksum. -/
theorem header8191_reachable :
    ∃ s : Session, s.Reachable noHandlers ∧ s.active = true ∧ s.ReceivesOversize := by
  let seen := ((Session.new 1 true).bind fun s =>
    s.exec noHandlers [.start, .arrive (Wire.header 100 8191), .run, .run]).map fun s =>
      (s.active, s.async_read_buffer.mem.length,
        s.async_read_buffer.next.map fun next => (next.1, next.2.1))
  have hseen : seen = some (true, 8191, some (.readIdLength, [0xff, 0x1f, 0xe1, 100, 0])) := by
    decide +kernel
  obtain ⟨s, hs, hview⟩ := Option.map_eq_some_iff.mp hseen
  obtain ⟨s₀, hnew, hexec⟩ := Option.bind_eq_some_iff.mp hs
  simp only [Prod.mk.injEq] at hview
  obtain ⟨hactive, hmem, hnext⟩ := hview
  obtain ⟨⟨callback, header, buffer⟩, hnext, hheader⟩ := Option.map_eq_some_iff.mp hnext
  simp only [Prod.mk.injEq] at hheader
  obtain ⟨rfl, rfl⟩ := hheader
  exact ⟨s, ⟨1, true, s₀, _, hnew, hexec⟩, hactive, _, buffer, hnext, by rw [hmem]; decide⟩

theorem header8191_not_recovers :
    ∃ s : Session, s.Reachable noHandlers ∧ s.active = true ∧ s.ReceivesOversize ∧
      ¬ s.Recovers noHandlers := by
  obtain ⟨s, hreachable, hactive, hoversize⟩ := header8191_reachable
  exact ⟨s, hreachable, hactive, hoversize, oversize_not_recovers noHandlers hoversize⟩

/-- The session stops where it should regain its synchronization. -/
theorem header8191_stops :
    ¬ ∀ (handlers : Handlers) (s : Session), s.Reachable handlers → s.active = true →
      s.ReceivesOversize → s.Recovers handlers := by
  intro hrecovers
  obtain ⟨s, hreachable, hactive, hoversize⟩ := header8191_reachable
  obtain ⟨s', -, hstep, hactive', -⟩ := hrecovers noHandlers s hreachable hactive hoversize
  rw [oversize_stops hoversize hstep] at hactive'
  cases hactive'

end Ros2Serial.Host
