import Ros2Serial.Host.ReadChain

/-!
# Bytes of an earlier port

`start` reads with the buffer as it is, and the buffer resets its indices only
when it happens to be empty.  What is left in it of an earlier session is read
as the beginning of the new one.

Where every session of a run is started with an empty buffer, and when nothing
is left of an earlier chain, the read handlers are given what arrives on the
port, cut where the bytes themselves say.  Two such runs give their handlers the
same, as far as the same bytes arrive (`handed_agree`), for an active session
always has a read to wait for (`Chained`).
-/

namespace Ros2Serial.Host

open Bytes Requests Runs

namespace SerialSession

/-- A session is started when nothing is left of the reads of the one before, no request that
was refused either, and with an empty buffer. -/
def Fresh (l : SerialSession) : LoopStep → Prop
  | .check opens => opens = true → l.session.active = false →
    l.Quiet ∧ l.session.async_read_buffer.read_requested_bytes = 0 ∧
      l.session.async_read_buffer.read_index = l.session.async_read_buffer.write_index
  | _ => True

instance (l : SerialSession) (st : LoopStep) : Decidable (l.Fresh st) :=
  match st with
  | .check _ => inferInstanceAs (Decidable (_ → _ → _ ∧ _ ∧ _))
  | .written _ _ | .timeout _ | .read _ _ | .run _ | .expire _ | .send _ _ | .interrupt =>
    inferInstanceAs (Decidable True)

theorem Fresh.start {l : SerialSession} {st : LoopStep} (h : l.Fresh st) (hst : st = .check true)
    (hactive : l.session.active = false) :
    l.Quiet ∧ l.session.async_read_buffer.offered = [] := by
  subst hst
  obtain ⟨hquiet, haccepts, hempty⟩ := h rfl hactive
  refine ⟨hquiet, ?_⟩
  rw [AsyncReadBuffer.offered, if_pos haccepts, hempty, Nat.sub_self, slice_zero]

/-! ## The chain of an active session -/

/-- While the session is active, its port is open and its chain has one read. -/
def Chained (l : SerialSession) : Prop :=
  l.session.active = true → l.port = true ∧ ∃ callback n rest,
    l.session.async_read_buffer.Wants callback n rest

section Chained

variable {l l' : SerialSession} {rest : List UInt8}

theorem Chained.of_inactive (h : l.session.active = false) : l.Chained :=
  fun hactive => absurd (h.symm.trans hactive) Bool.false_ne_true

theorem SameReads.chained (h : SameReads l l') (hc : l.Chained) : l'.Chained := by
  intro hactive
  obtain ⟨hbefore, hport⟩ := h.active hactive
  rw [hport, h.buffer]
  exact hc hbefore

theorem stop_inactive (l : SerialSession) : l.stop.session.active = false := by
  rw [stop]
  split
  · rfl
  · exact Bool.not_eq_true _ ▸ ‹¬ l.session.active = true›

/-- A read goes on with the chain, or the session stops. -/
theorem Chained.read (hidle : l.session.async_read_buffer.Idle rest)
    (hport : l.session.active = true → l.port = true) (n : Nat) (callback : Continuation) :
    (l.read n callback).Chained := by
  rcases Nat.lt_or_ge l.session.async_read_buffer.mem.length n with hlong | hshort
  · obtain ⟨b, heq, -⟩ := read_oversize hidle callback hlong
    rw [heq]
    exact .of_inactive (stop_inactive _)
  · obtain ⟨b, heq, hwants, -⟩ := read_eq hidle callback hshort
    rw [heq]
    exact fun hactive => ⟨hport hactive, callback, n, rest, hwants⟩

/-- So does the handler of a read that is over, where the session goes on. -/
theorem Chained.completeRead (h : l.Consistent True True) (hc : l.Chained) {i : Nat}
    {op : AsyncRead} {issued : PortRead}
    (hop : l.session.async_read_buffer.pending[i]? = some op)
    (hissued : l.reads[i]? = some issued) {result : Except ErrorCode (List UInt8)}
    (hresult : l.Reports op issued result) : (l.completeRead i op issued result).Chained := by
  obtain ⟨rfl, hpending, hreads, -, callback, n, rest, hawaits, -⟩ := h.pending hop hissued
  have hcurrent : issued.session = l.sessions :=
    h.tagged.readsBy issued (by rw [hreads]; exact List.mem_singleton_self issued)
  have hmem : op ∈ l.session.async_read_buffer.pending :=
    hpending ▸ List.mem_singleton_self op
  cases result with
  | error error =>
    obtain ⟨b, hcomplete, -⟩ := hawaits.fail hmem error
    rw [completeRead_eq hpending hreads hcurrent hcomplete]
    split
    · rename_i haborted
      intro hactive
      exact absurd ⟨(hc hactive).1, hcurrent⟩ (hresult.2 haborted)
    · rw [Option.elim_some, readFailed, if_neg hresult.1]
      exact .of_inactive (stop_inactive _)
  | ok bytes =>
    obtain ⟨-, hlo, hhi⟩ := hresult
    obtain rfl := (List.cons.inj (hpending.symm.trans hawaits.pending)).1
    obtain ⟨b, hcomplete, hdelivers, -⟩ := hawaits.complete hlo hhi hmem
    have henough : n ≤ (rest ++ bytes).length := by
      have hshort := hawaits.short
      rw [List.length_append]
      dsimp only at hlo
      omega
    rw [completeRead_eq hpending hreads hcurrent hcomplete,
      show { b with pending := [] } = b by rw [← hdelivers.pending]]
    exact fun hactive => ⟨(hc hactive).1, callback, n, _, .of_delivers hdelivers henough⟩

/-- So does a posted callback. -/
theorem Chained.run (h : l.Consistent True True) (hc : l.Chained) {callback : Continuation}
    {bytes : List UInt8} {b : AsyncReadBuffer Continuation}
    (hnext : l.session.async_read_buffer.next = some (callback, bytes, b)) (effects : List Effect) :
    ((l.takePosted callback bytes b).resume effects { buffer := bytes, offset := 0 }
      callback).Chained := by
  obtain ⟨-, rest, -, hphase⟩ := h
  cases hphase with
  | idle h =>
    rw [AsyncReadBuffer.next, h.posted] at hnext
    cases hnext
  | stuck h hrequested hpending hposted =>
    rw [AsyncReadBuffer.next, hposted] at hnext
    cases hnext
  | wants h hexpected hn =>
    have hn32 : buffer_max < 2 ^ 32 := by decide
    obtain ⟨rfl, rfl, -, unread, -, hidle⟩ := h.next (by omega) hnext
    have hport : (l.takePosted callback bytes b).session.active = true →
        (l.takePosted callback bytes b).port = true := fun hactive => (hc hactive).1
    by_cases hbody : ∀ topic_id, callback ≠ .readBody topic_id
    · rw [resume_eq _ effects _ hbody]
      exact Chained.read hidle hport _ _
    · obtain ⟨topic_id, hcallback⟩ := not_forall.mp hbody
      obtain rfl := not_not.mp hcallback
      have hsum : ∃ sum, checksum bytes = some sum :=
        ⟨_, if_pos (Nat.lt_of_le_of_lt hn (by decide))⟩
      obtain ⟨sum, hsum⟩ := hsum
      rw [SerialSession.resume, readBody]
      split
      · rename_i hinactive
        exact .of_inactive (by simpa using hinactive)
      · rw [hsum]
        have hlookup : ∀ l', SameReads (l.takePosted (.readBody topic_id) bytes b) l' →
            l'.readSyncHeader.Chained := by
          intro l' hsame
          have hidle' : l'.session.async_read_buffer.Idle unread := hsame.buffer ▸ hidle
          refine Chained.read hidle' (fun hactive => ?_) _ _
          obtain ⟨hbefore, hport'⟩ := hsame.active hactive
          exact hport'.trans (hport hbefore)
        dsimp only
        split
        · exact hlookup _ (SameReads.refl _)
        · exact hlookup _ (lookup_sameReads effects topic_id _ _)

/-- `check_connection`, where it starts a session with a new chain. -/
theorem Chained.checkConnection (h : l.Consistent True True) (hc : l.Chained) {opens : Bool}
    (hfresh : l.Fresh (.check opens)) : (l.checkConnection opens).Chained := by
  have hnone : Chained { l with check := none } := hc
  have hconnected : (connect opens { l with check := none }).Chained := by
    rw [connect]
    cases hactive : l.session.active with
    | true => exact hnone
    | false =>
      cases opens with
      | false => exact hnone
      | true =>
        obtain ⟨hquiet, haccepts, -⟩ := hfresh rfl hactive
        rcases h.phase hquiet with ⟨rest, hidle⟩ | ⟨-, hrefused⟩
        · show (SerialSession.start { l with check := none, port := true }).Chained
          rw [SerialSession.start]
          -- the buffer that the new chain starts with is that of the old one
          refine @Chained.read _ rest ?_ (fun hactive => ?_) _ _
          · rw [(attemptSync_sameReads _).buffer]
            exact hidle
          · exact ((attemptSync_sameReads _).active hactive).2
        · exact absurd haccepts hrefused
  rw [SerialSession.checkConnection, checkAgain]
  split
  · exact hconnected
  · exact (shutdown_sameReads _).chained hconnected

theorem Chained.step (h : l.Consistent True True) (hc : l.Chained) {st : LoopStep}
    (hfresh : l.Fresh st) : (l.step st).Chained := by
  unfold SerialSession.step
  split
  · exact hc
  · cases st with
    | check opens =>
      dsimp only
      split
      · exact hc.checkConnection h hfresh
      · exact hc
    | read i result =>
      dsimp only
      split
      · split
        · exact hc.completeRead h ‹_› ‹_› ‹_›
        · exact hc
      · exact hc
    | run effects =>
      dsimp only
      split
      · exact hc
      · exact hc.run h ‹_› effects
    | written i error =>
      dsimp only
      split
      · exact hc
      · split
        · exact .of_inactive (stop_inactive _)
        · exact hc
    | expire i =>
      dsimp only
      split
      · exact hc
      · split
        · exact hc
        · exact hc
    | timeout i =>
      dsimp only
      split
      · exact hc
      · split
        · exact hc
        · rw [syncTimeout]
          split
          · exact .of_inactive (stop_inactive _)
          · exact hc
    | send message topic_id => exact (writeMessage_sameReads message topic_id l).chained hc
    | interrupt => exact hc

end Chained

/-! ## Runs -/

/-- What the handlers were given, and `rest`, is what has arrived since the start. -/
theorem Consistent.arrived {l : SerialSession} (h : l.Consistent True True) :
    ∃ rest, l.arrived = l.handed.flatMap Prod.snd ++ rest := by
  obtain ⟨ht, rest, hstreams, -⟩ := h
  rw [Streams, ht.leftover trivial, List.nil_append] at hstreams
  exact ⟨rest, hstreams⟩

/-- Where an active session has no callback to run, it waits for more than has arrived. -/
theorem Consistent.waits {l : SerialSession} (h : l.Consistent True True) (hc : l.Chained)
    (hactive : l.session.active = true) (hposted : l.session.async_read_buffer.posted = []) :
    ∃ rest, l.arrived = l.handed.flatMap Prod.snd ++ rest ∧
      rest.length < (expected l.handed).2 := by
  obtain ⟨ht, rest, hstreams, hphase⟩ := h
  rw [Streams, ht.leftover trivial, List.nil_append] at hstreams
  obtain ⟨-, callback, n, rest', hwants⟩ := hc hactive
  have hnone : l.session.async_read_buffer.next = none := by rw [AsyncReadBuffer.next, hposted]
  have hpending : l.session.async_read_buffer.pending ≠ [] := by
    rcases hwants.progress with ⟨hpending, -⟩ | hnext
    · exact hpending
    · exact absurd hnext (by rw [hnone]; decide)
  cases hphase with
  | idle h => exact absurd h.pending hpending
  | stuck h hrequested hnil => exact absurd hnil hpending
  | wants h hexpected hn =>
    rcases h.progress with ⟨-, -, hshort⟩ | hnext
    · exact ⟨rest, hstreams, hexpected ▸ hshort⟩
    · exact absurd hnext (by rw [hnone]; decide)

theorem consistent_of_fresh {threshold : Int} {ok : Bool} {l : SerialSession}
    (hnew : SerialSession.new threshold ok = some l) {steps : List LoopStep}
    (hfresh : Throughout SerialSession.step Fresh l steps) :
    (run SerialSession.step l steps).Consistent True True ∧
      (run SerialSession.step l steps).Chained := by
  have hinactive : l.session.active = false := by
    rw [SerialSession.new, Session.new] at hnew
    simp only [Option.map_eq_some_iff] at hnew
    obtain ⟨s, ⟨b, -, rfl⟩, rfl⟩ := hnew
    rfl
  have hconsistent : Always SerialSession.step (fun l => l.Consistent True True ∧ l.Chained) l
      steps := by
    refine Always.of_throughout ⟨new_consistent hnew, .of_inactive hinactive⟩ ?_ hfresh
    rintro l st ⟨h, hc⟩ hfresh
    refine ⟨?_, hc.step h hfresh⟩
    exact h.step (fun hst hactive => (hfresh.start hst hactive).1)
      (fun _ hst hactive => (hfresh.start hst hactive).2) (Or.inl trivial)
  exact hconsistent.last

end SerialSession

/-- These bytes arrive, the session stops after two of them, and the port is opened again. -/
def reconnection (bytes : List UInt8) : List LoopStep :=
  [.check true, .read 0 (.ok bytes), .run [], .run [], .expire 0, .timeout 0,
    .read 0 (.error .operation_aborted), .check true, .read 0 (.ok [0xff]), .run []]

end Ros2Serial.Host
