import Mathlib.Data.List.Infix
import Ros2Serial.Lib.Ring
import Ros2Serial.Lib.Runs

/-!
# The transmit ring of the STM32

`STM32Hardware` copies what `write` gets to the ring `tbuf`, and `flush` starts the
DMA engine on as much of it as lies in one piece.  `tfind` is behind that region as
soon as the transfer has started, so that the ring no longer knows it is in use, and
`write` does not look whether there is room.

* A byte of a region is read at any time before the transfer is complete, and in any
  order.  What is sent is what was in `tbuf` then.
* `pending` is what would be sent if nothing were written any more.  Only `write`
  changes it (`flush_pending`).
* A run is intact if in every state what was sent and what is pending are some of the
  writes, each of them whole, and always the same ones (`Intact`).
* `intact_iff_safe` says when that is: no write may change a byte that is still
  wanted, and it has to fit behind the queue, or to be of 256 bytes and more.  Of the
  latter nothing is sent.
-/

namespace Ros2Serial.Device

open Bytes Runs

/-! ## The hardware -/

/-- `tbuflen`. -/
def tbuflen : Nat := 256

/-- A transfer of the DMA engine: where its region starts, and the bytes of the region that
it has read. -/
structure Transfer where
  start : Nat
  fetched : List (Option UInt8)
  deriving DecidableEq

/-- The members of `STM32Hardware` that are for transmission.  `huart->gState` is
`HAL_UART_STATE_READY` if there is no transfer. -/
structure STM32Hardware where
  tbuf : List UInt8
  twind : Nat
  tfind : Nat
  transfer : Option Transfer
  deriving DecidableEq

namespace STM32Hardware

/-- The constructor, which leaves `tbuf` as it is. -/
def new (tbuf : Vector UInt8 tbuflen) : STM32Hardware where
  tbuf := tbuf.toList
  twind := 0
  tfind := 0
  transfer := none

/-- `flush`.  Calls come one after the other, so that its `mutex` is free. -/
def flush (h : STM32Hardware) : STM32Hardware :=
  match h.transfer with
  | some _ => h
  | none =>
    if h.twind ≠ h.tfind then
      let len := if h.tfind < h.twind then h.twind - h.tfind else tbuflen - h.tfind
      { h with
        transfer := some { start := h.tfind, fetched := List.replicate len none }
        tfind := (h.tfind + len) &&& (tbuflen - 1) }
    else h

/-- `write`. -/
def write (data : List UInt8) (h : STM32Hardware) : STM32Hardware :=
  let n := if data.length ≤ tbuflen then data.length else tbuflen
  let n_tail := if n ≤ tbuflen - h.twind then n else tbuflen - h.twind
  let tbuf := overwrite h.tbuf h.twind (data.take n_tail)
  let twind := (h.twind + n) &&& (tbuflen - 1)
  let tbuf := if n ≠ n_tail then overwrite tbuf 0 ((data.drop n_tail).take (n - n_tail)) else tbuf
  flush { h with tbuf := tbuf, twind := twind }

end STM32Hardware

/-- The DMA engine reads a byte of its region. -/
def Transfer.fetch (tbuf : List UInt8) (i : Nat) (t : Transfer) : Transfer :=
  if t.fetched[i]? = some none then
    { t with fetched := t.fetched.set i (some (tbuf.getD (t.start + i) default)) }
  else t

/-- The hardware, with what the DMA engine has sent and what was written. -/
structure Line where
  hardware : STM32Hardware
  transmitted : List UInt8
  writes : List (List UInt8)
  deriving DecidableEq

/-- A line on which nothing was sent. -/
def Line.new (tbuf : Vector UInt8 tbuflen) : Line where
  hardware := .new tbuf
  transmitted := []
  writes := []

/-- The DMA engine reads a byte of its region, if there is a transfer. -/
def Line.fetch (i : Nat) (s : Line) : Line :=
  match s.hardware.transfer with
  | none => s
  | some t =>
    { s with hardware := { s.hardware with transfer := some (t.fetch s.hardware.tbuf i) } }

/-- The transfer is complete, if all of its bytes were read. -/
def Line.complete (s : Line) : Line :=
  match s.hardware.transfer with
  | none => s
  | some t =>
    if t.fetched.all Option.isSome then
      { s with
        hardware := { s.hardware with transfer := none }
        transmitted := s.transmitted ++ t.fetched.filterMap id }
    else s

inductive LineStep
  | write (data : List UInt8)
  | flush
  | fetch (i : Nat)
  | complete

def Line.step (s : Line) : LineStep → Line
  | .write data => { s with hardware := s.hardware.write data, writes := s.writes ++ [data] }
  | .flush => { s with hardware := s.hardware.flush }
  | .fetch i => s.fetch i
  | .complete => s.complete

/-! ## What is pending -/

/-- What a transfer sends if nothing is written any more. -/
def Transfer.content (tbuf : List UInt8) (t : Transfer) : List UInt8 :=
  t.fetched.mapIdx fun i byte => byte.getD (tbuf.getD (t.start + i) default)

namespace STM32Hardware

/-- What the transfer sends that is running. -/
def inFlight (h : STM32Hardware) : List UInt8 :=
  match h.transfer with
  | none => []
  | some t => t.content h.tbuf

/-- The number of bytes that wait for a transfer. -/
def queueLength (h : STM32Hardware) : Nat := distance tbuflen h.tfind h.twind

/-- The bytes that wait for a transfer. -/
def queued (h : STM32Hardware) : List UInt8 := ringSlice h.tbuf h.tfind h.queueLength

/-- What will be sent if nothing is written any more. -/
def pending (h : STM32Hardware) : List UInt8 := h.inFlight ++ h.queued

/-- The indices are inside the ring. -/
structure Valid (h : STM32Hardware) : Prop where
  tbuf : h.tbuf.length = tbuflen
  twind : h.twind < tbuflen
  tfind : h.tfind < tbuflen
  transfer : ∀ t, h.transfer = some t → t.start + t.fetched.length ≤ tbuflen

theorem and_tbuflen (n : Nat) : n &&& (tbuflen - 1) = n % tbuflen :=
  Nat.and_two_pow_sub_one_eq_mod n 8

variable {h : STM32Hardware}

theorem new_valid (tbuf : Vector UInt8 tbuflen) : (new tbuf).Valid :=
  ⟨tbuf.length_toList, Nat.zero_lt_succ 255, Nat.zero_lt_succ 255, fun _ ht => by cases ht⟩

/-- A transfer that has read nothing sends its region. -/
theorem content_replicate {tbuf : List UInt8} {start len : Nat} (h : start + len ≤ tbuf.length) :
    Transfer.content tbuf ⟨start, List.replicate len none⟩ = ringSlice tbuf start len := by
  refine List.ext_getElem ?_ fun i hi hi' => ?_
  · simp [Transfer.content]
  · rw [ringSlice_length] at hi'
    simp only [Transfer.content, List.getElem_mapIdx, List.getElem_replicate, Option.getD_none,
      ringSlice, List.getElem_map, List.getElem_range]
    rw [Nat.mod_eq_of_lt (by omega)]

/-- `flush` starts a transfer with a part of the queue. -/
theorem Valid.flush (hvalid : h.Valid) : h.flush.Valid ∧ h.flush.pending = h.pending := by
  have htbuf := hvalid.tbuf
  have htwind := hvalid.twind
  have htfind := hvalid.tfind
  unfold STM32Hardware.flush
  split
  · exact ⟨hvalid, rfl⟩
  · rename_i htransfer
    split
    · rename_i hne
      -- the region is what lies in front of `twind` or of the end
      generalize hlen : (if h.tfind < h.twind then h.twind - h.tfind else tbuflen - h.tfind) = len
      have hinside : h.tfind + len ≤ tbuflen := by
        rw [← hlen]
        split <;> omega
      have hsplit : h.queueLength = len + distance tbuflen ((h.tfind + len) % tbuflen) h.twind := by
        unfold queueLength distance
        unfold tbuflen at *
        split at hlen <;> omega
      dsimp only
      rw [and_tbuflen]
      constructor
      · refine ⟨htbuf, htwind, Nat.mod_lt _ (by decide), fun t ht => ?_⟩
        obtain rfl := Option.some.inj ht
        rw [List.length_replicate]
        exact hinside
      · show Transfer.content h.tbuf ⟨h.tfind, List.replicate len none⟩ ++
          ringSlice h.tbuf ((h.tfind + len) % tbuflen)
            (distance tbuflen ((h.tfind + len) % tbuflen) h.twind) = h.inFlight ++ h.queued
        rw [content_replicate (by omega), inFlight, htransfer, List.nil_append, queued, hsplit,
          ringSlice_add, htbuf]
    · exact ⟨hvalid, rfl⟩

/-- The ring after a `write`, in front of its `flush`. -/
def put (data : List UInt8) (h : STM32Hardware) : STM32Hardware :=
  { h with
    tbuf := ringPut h.tbuf h.twind (data.take tbuflen)
    twind := (h.twind + min data.length tbuflen) % tbuflen }

theorem Valid.write_eq (hvalid : h.Valid) (data : List UInt8) :
    h.write data = (h.put data).flush := by
  have htbuf := hvalid.tbuf
  have htwind := hvalid.twind
  have hn : (if data.length ≤ tbuflen then data.length else tbuflen) =
      min data.length tbuflen := by
    split <;> omega
  have hn_tail : (if min data.length tbuflen ≤ tbuflen - h.twind then min data.length tbuflen
      else tbuflen - h.twind) = min (min data.length tbuflen) (tbuflen - h.twind) := by
    split <;> omega
  have hring : (if min data.length tbuflen ≠ min (min data.length tbuflen) (tbuflen - h.twind) then
        overwrite (overwrite h.tbuf h.twind
            (data.take (min (min data.length tbuflen) (tbuflen - h.twind)))) 0
          ((data.drop (min (min data.length tbuflen) (tbuflen - h.twind))).take
            (min data.length tbuflen - min (min data.length tbuflen) (tbuflen - h.twind)))
      else overwrite h.tbuf h.twind
        (data.take (min (min data.length tbuflen) (tbuflen - h.twind)))) =
      ringPut h.tbuf h.twind (data.take tbuflen) := by
    unfold ringPut
    rw [List.length_take, htbuf, Nat.min_comm tbuflen data.length]
    generalize htail : min (min data.length tbuflen) (tbuflen - h.twind) = tail
    have hfirst : (data.take tbuflen).take tail = data.take tail := by
      rw [List.take_take]
      congr 1
      omega
    have hsecond : (data.take tbuflen).drop tail =
        (data.drop tail).take (min data.length tbuflen - tail) := by
      rw [List.drop_take]
      refine List.take_eq_take_iff.mpr ?_
      rw [List.length_drop]
      omega
    dsimp only
    rw [hfirst, hsecond]
    split
    · rfl
    · rename_i hall
      rw [show min data.length tbuflen - tail = 0 by omega, List.take_zero, overwrite_nil]
  unfold STM32Hardware.write put
  simp only [hn, hn_tail, hring, and_tbuflen]

end STM32Hardware

/-! ## What a write does -/

namespace STM32Hardware

/-- A write of these bytes does not change what the ring has at a position. -/
def Spares (h : STM32Hardware) (data : List UInt8) (p : Nat) : Prop :=
  distance tbuflen h.twind p < data.length →
    data.getD (distance tbuflen h.twind p) default = h.tbuf.getD p default

instance (h : STM32Hardware) (data : List UInt8) (p : Nat) : Decidable (h.Spares data p) :=
  inferInstanceAs (Decidable (_ → _))

/-- What the DMA engine has still to read is spared. -/
def SparesTransfer (h : STM32Hardware) (data : List UInt8) : Prop :=
  ∀ t, h.transfer = some t → ∀ i, t.fetched[i]? = some none → h.Spares data (t.start + i)

/-- The bytes have room behind the queue, or there are so many of them that `twind` comes back
to where it is, and the queue is spared. -/
def HasRoom (h : STM32Hardware) (data : List UInt8) : Prop :=
  h.queueLength + data.length < tbuflen ∨
    tbuflen ≤ data.length ∧ ∀ k < h.queueLength, h.Spares data ((h.tfind + k) % tbuflen)

variable {h : STM32Hardware} {data : List UInt8}

theorem put_valid (hvalid : h.Valid) (data : List UInt8) : (h.put data).Valid where
  tbuf := by
    have htwind := hvalid.twind
    have htbuf := hvalid.tbuf
    show (ringPut h.tbuf h.twind (data.take tbuflen)).length = tbuflen
    rw [ringPut_length (by omega) (by rw [List.length_take]; omega), htbuf]
  twind := Nat.mod_lt _ (Nat.zero_lt_succ 255)
  tfind := hvalid.tfind
  transfer := hvalid.transfer

/-- A position of the ring after a write. -/
theorem getD_put (hvalid : h.Valid) (data : List UInt8) {p : Nat} (hp : p < tbuflen) :
    (h.put data).tbuf.getD p default =
      if distance tbuflen h.twind p < data.length then
        data.getD (distance tbuflen h.twind p) default
      else h.tbuf.getD p default := by
  have htbuf := hvalid.tbuf
  have htwind := hvalid.twind
  have hdistance : distance tbuflen h.twind p < tbuflen := Nat.mod_lt _ (Nat.zero_lt_succ 255)
  have hlength : (data.take tbuflen).length ≤ h.tbuf.length := by
    rw [List.length_take]
    omega
  have hput := getD_ringPut (htbuf.symm ▸ htwind) hlength (htbuf.symm ▸ hp)
  rw [htbuf, List.length_take] at hput
  refine hput.trans ?_
  by_cases hwritten : distance tbuflen h.twind p < data.length
  · rw [if_pos (by omega), if_pos hwritten, List.getD_eq_getElem?_getD,
      List.getD_eq_getElem?_getD, List.getElem?_take, if_pos hdistance]
  · rw [if_neg (by omega), if_neg hwritten]

/-- A position that is spared has what it had, and no other. -/
theorem spares_iff (hvalid : h.Valid) {p : Nat} (hp : p < tbuflen) :
    h.Spares data p ↔ (h.put data).tbuf.getD p default = h.tbuf.getD p default := by
  rw [getD_put hvalid data hp]
  unfold Spares
  split
  · rename_i hwritten
    exact ⟨fun h => h hwritten, fun h _ => h⟩
  · rename_i hkept
    exact ⟨fun _ => rfl, fun _ hwritten => absurd hwritten hkept⟩

/-- The length of the queue after a write, modulo that of the ring. -/
theorem queueLength_put (hvalid : h.Valid) (data : List UInt8) :
    (h.put data).queueLength = (h.queueLength + min data.length tbuflen) % tbuflen := by
  have htwind := hvalid.twind
  have htfind := hvalid.tfind
  show distance tbuflen h.tfind ((h.twind + min data.length tbuflen) % tbuflen) = _
  unfold queueLength distance
  unfold tbuflen at *
  omega

theorem inFlight_put_length (h : STM32Hardware) (data : List UInt8) :
    (h.put data).inFlight.length = h.inFlight.length := by
  show (match h.transfer with
    | none => []
    | some t => t.content (h.put data).tbuf).length = _
  unfold inFlight
  split
  · rfl
  · unfold Transfer.content
    rw [List.length_mapIdx, List.length_mapIdx]

/-- The transfer sends what it has sent before if and only if what it has still to read is
spared. -/
theorem inFlight_put_iff (hvalid : h.Valid) :
    (h.put data).inFlight = h.inFlight ↔ h.SparesTransfer data := by
  have hput : (h.put data).inFlight = match h.transfer with
      | none => []
      | some t => t.content (h.put data).tbuf := rfl
  rw [hput]
  unfold inFlight SparesTransfer
  cases htransfer : h.transfer with
  | none => exact iff_of_true rfl fun t ht => by cases ht
  | some t =>
    have hinside := hvalid.transfer t htransfer
    have hspares : ∀ i, i < t.fetched.length → (h.Spares data (t.start + i) ↔
        (h.put data).tbuf.getD (t.start + i) default = h.tbuf.getD (t.start + i) default) :=
      fun i hi => spares_iff hvalid (by omega)
    dsimp only
    constructor
    · intro hsame u hu i hi
      obtain rfl := Option.some.inj hu
      have hlt : i < t.fetched.length := (List.getElem?_eq_some_iff.mp hi).1
      have hbyte := congrArg (fun content => content[i]?) hsame
      unfold Transfer.content at hbyte
      simp only [List.getElem?_mapIdx, hi, Option.map_some, Option.getD_none] at hbyte
      exact (hspares i hlt).mpr (Option.some.inj hbyte)
    · intro hspared
      unfold Transfer.content
      refine List.ext_getElem? fun i => ?_
      rw [List.getElem?_mapIdx, List.getElem?_mapIdx]
      cases hi : t.fetched[i]? with
      | none => rfl
      | some byte =>
        have hlt : i < t.fetched.length := (List.getElem?_eq_some_iff.mp hi).1
        cases byte with
        | some b => rfl
        | none => exact congrArg some ((hspares i hlt).mp (hspared t rfl i hi))

/-- With room behind the queue, the bytes are queued. -/
theorem queued_put_of_lt (hvalid : h.Valid) (hroom : h.queueLength + data.length < tbuflen) :
    (h.put data).queued = h.queued ++ data := by
  have htbuf := hvalid.tbuf
  have htwind := hvalid.twind
  have htfind := hvalid.tfind
  have hlength : (h.put data).queueLength = h.queueLength + data.length := by
    rw [queueLength_put hvalid, Nat.min_eq_left (by omega), Nat.mod_eq_of_lt hroom]
  have htake : data.take tbuflen = data := List.take_of_length_le (by omega)
  have hend : (h.tfind + h.queueLength) % tbuflen = h.twind := add_distance htfind htwind
  have hputbuf : (h.put data).tbuf = ringPut h.tbuf h.twind data := by
    unfold put
    rw [htake]
  show ringSlice (h.put data).tbuf h.tfind (h.put data).queueLength = _
  rw [hlength, ringSlice_add, (put_valid hvalid data).tbuf, hend, hputbuf,
    ringSlice_ringPut_self (by omega) (by omega), ← hputbuf]
  congr 1
  refine ringSlice_congr ((put_valid hvalid data).tbuf.trans htbuf.symm) fun k hk => ?_
  rw [htbuf, getD_put hvalid data (Nat.mod_lt _ (Nat.zero_lt_succ 255)), if_neg]
  -- the queue lies in front of `twind`
  unfold queueLength distance at *
  unfold tbuflen at *
  omega

/-- With 256 bytes and more, the queue has its length, and it has what it had if and only if it
is spared. -/
theorem queued_put_of_le (hvalid : h.Valid) (hlong : tbuflen ≤ data.length) :
    (h.put data).queued = h.queued ↔
      ∀ k < h.queueLength, h.Spares data ((h.tfind + k) % tbuflen) := by
  have htbuf := hvalid.tbuf
  have hq : h.queueLength < tbuflen := Nat.mod_lt _ (Nat.zero_lt_succ 255)
  have hlength : (h.put data).queueLength = h.queueLength := by
    rw [queueLength_put hvalid, Nat.min_eq_right hlong, Nat.add_mod_right, Nat.mod_eq_of_lt hq]
  have hspares : ∀ k, (h.Spares data ((h.tfind + k) % tbuflen) ↔ _) := fun k =>
    spares_iff hvalid (Nat.mod_lt _ (Nat.zero_lt_succ 255))
  have hputqueue : (h.put data).queued = ringSlice (h.put data).tbuf h.tfind h.queueLength := by
    rw [← hlength]
    rfl
  rw [hputqueue]
  unfold queued
  constructor
  · intro hsame k hk
    have hbyte := congrArg (fun bytes => bytes[k]?) hsame
    simp only [ringSlice, List.getElem?_map, List.getElem?_range hk, Option.map_some,
      (put_valid hvalid data).tbuf, htbuf] at hbyte
    exact (hspares k).mpr (Option.some.inj hbyte)
  · intro hspared
    refine ringSlice_congr ((put_valid hvalid data).tbuf.trans htbuf.symm) fun k hk => ?_
    rw [htbuf]
    exact (hspares k).mp (hspared k hk)

/-- What is pending after a write. -/
theorem write_pending (hvalid : h.Valid) (data : List UInt8) :
    (h.write data).pending = (h.put data).inFlight ++ (h.put data).queued := by
  rw [hvalid.write_eq, (put_valid hvalid data).flush.2]
  rfl

/-- A safe write is queued whole, or dropped whole. -/
theorem write_pending_of_safe (hvalid : h.Valid) (htransfer : h.SparesTransfer data)
    (hroom : h.HasRoom data) : (h.write data).pending =
      h.pending ++ if data.length < tbuflen then data else [] := by
  rw [write_pending hvalid, (inFlight_put_iff hvalid).mpr htransfer]
  unfold pending
  rcases hroom with hlt | ⟨hlong, hspared⟩
  · rw [queued_put_of_lt hvalid hlt, if_pos (by omega), List.append_assoc]
  · rw [(queued_put_of_le hvalid hlong).mpr hspared, if_neg (by omega), List.append_nil]

/-- And only a safe write is. -/
theorem safe_of_write_pending (hvalid : h.Valid) {rest : List UInt8}
    (hrest : rest = data ∨ rest = []) (hpending : (h.write data).pending = h.pending ++ rest) :
    h.SparesTransfer data ∧ h.HasRoom data := by
  rw [write_pending hvalid, pending, List.append_assoc] at hpending
  obtain ⟨hinFlight, hqueued⟩ := List.append_inj hpending (inFlight_put_length h data)
  refine ⟨(inFlight_put_iff hvalid).mp hinFlight, ?_⟩
  have hq : h.queueLength < tbuflen := Nat.mod_lt _ (Nat.zero_lt_succ 255)
  have hlength := congrArg List.length hqueued
  rw [List.length_append, queued, queued, ringSlice_length, ringSlice_length,
    queueLength_put hvalid] at hlength
  have hmod : (h.queueLength + min data.length tbuflen) % tbuflen < tbuflen :=
    Nat.mod_lt _ (Nat.zero_lt_succ 255)
  by_cases hlong : tbuflen ≤ data.length
  · rw [Nat.min_eq_right hlong, Nat.add_mod_right, Nat.mod_eq_of_lt hq] at hlength
    have hnil : rest = [] := by
      rw [← List.length_eq_zero_iff]
      omega
    rw [hnil, List.append_nil] at hqueued
    exact Or.inr ⟨hlong, (queued_put_of_le hvalid hlong).mp hqueued⟩
  · rcases hrest with rfl | rfl
    · left
      omega
    · rw [List.length_nil] at hlength
      left
      unfold tbuflen at *
      omega

end STM32Hardware

/-! ## Runs -/

/-- The writes that are kept, one after the other. -/
def kept (keep : Nat → Bool) (writes : List (List UInt8)) : List UInt8 :=
  ((writes.zipIdx.filter fun write => keep write.2).map Prod.fst).flatten

/-- What was sent and what is pending are the writes that are kept. -/
def Line.Intact (keep : Nat → Bool) (s : Line) : Prop :=
  s.transmitted ++ s.hardware.pending = kept keep s.writes

/-- A write is safe if it spares what the DMA engine has still to read, and has room. -/
def Line.Safe (s : Line) : LineStep → Prop
  | .write data => s.hardware.SparesTransfer data ∧ s.hardware.HasRoom data
  | _ => True

section Runs

variable {s : Line} {keep : Nat → Bool}

theorem kept_append (keep : Nat → Bool) (writes : List (List UInt8)) (data : List UInt8) :
    kept keep (writes ++ [data]) =
      kept keep writes ++ if keep writes.length then data else [] := by
  unfold kept
  rw [List.zipIdx_append, List.filter_append, List.map_append, List.flatten_append]
  congr 1
  rw [List.zipIdx_singleton, Nat.zero_add]
  cases hkeep : keep writes.length <;> simp [hkeep]

/-- A byte that the DMA engine reads is the byte that is pending. -/
theorem fetch_content (tbuf : List UInt8) (i : Nat) (t : Transfer) :
    (t.fetch tbuf i).content tbuf = t.content tbuf := by
  unfold Transfer.fetch
  split
  · rename_i hnone
    unfold Transfer.content
    refine List.ext_getElem? fun k => ?_
    rw [List.getElem?_mapIdx, List.getElem?_mapIdx]
    dsimp only
    by_cases hk : i = k
    · subst hk
      have hi : i < t.fetched.length := (List.getElem?_eq_some_iff.mp hnone).1
      rw [List.getElem?_set_self hi, hnone]
      rfl
    · rw [List.getElem?_set_ne hk]
  · rfl

/-- A transfer that has read all of its bytes sends them. -/
theorem content_of_all {t : Transfer} (tbuf : List UInt8)
    (hall : t.fetched.all Option.isSome = true) : t.content tbuf = t.fetched.filterMap id := by
  unfold Transfer.content
  generalize t.start = start
  generalize t.fetched = fetched at hall
  induction fetched generalizing start with
  | nil => rfl
  | cons byte rest ih =>
    rw [List.all_cons, Bool.and_eq_true] at hall
    obtain ⟨b, rfl⟩ := Option.isSome_iff_exists.mp hall.1
    rw [List.mapIdx_cons, List.filterMap_cons, ← ih (start + 1) hall.2]
    simp only [Option.getD_some, id, Nat.add_assoc, Nat.add_comm 1]

/-- Every step keeps the indices inside the ring. -/
theorem Line.step_valid (h : s.hardware.Valid) (st : LineStep) : (s.step st).hardware.Valid := by
  cases st with
  | write data =>
    show (s.hardware.write data).Valid
    rw [h.write_eq]
    exact (STM32Hardware.put_valid h data).flush.1
  | flush => exact h.flush.1
  | fetch i =>
    unfold Line.step Line.fetch
    dsimp only
    split
    · exact h
    · rename_i t ht
      refine ⟨h.tbuf, h.twind, h.tfind, fun u hu => ?_⟩
      obtain rfl := Option.some.inj hu
      have hinside := h.transfer t ht
      unfold Transfer.fetch
      split
      · rw [List.length_set]
        exact hinside
      · exact hinside
  | complete =>
    unfold Line.step Line.complete
    dsimp only
    split
    · exact h
    · split
      · exact ⟨h.tbuf, h.twind, h.tfind, fun u hu => by cases hu⟩
      · exact h

/-- Only a write changes what was sent and what is pending, taken together. -/
theorem Line.step_intact (h : s.hardware.Valid) (st : LineStep) (hst : ∀ data, st ≠ .write data) :
    (s.step st).transmitted ++ (s.step st).hardware.pending =
        s.transmitted ++ s.hardware.pending ∧ (s.step st).writes = s.writes := by
  cases st with
  | write data => exact absurd rfl (hst data)
  | flush =>
    refine ⟨?_, rfl⟩
    show s.transmitted ++ s.hardware.flush.pending = _
    rw [h.flush.2]
  | fetch i =>
    unfold Line.step Line.fetch
    dsimp only
    split
    · exact ⟨rfl, rfl⟩
    · rename_i t ht
      refine ⟨?_, rfl⟩
      show s.transmitted ++ ((t.fetch s.hardware.tbuf i).content s.hardware.tbuf ++
        s.hardware.queued) = _
      rw [fetch_content, STM32Hardware.pending, STM32Hardware.inFlight, ht]
  | complete =>
    unfold Line.step Line.complete
    dsimp only
    split
    · exact ⟨rfl, rfl⟩
    · rename_i t ht
      split
      · rename_i hall
        refine ⟨?_, rfl⟩
        show s.transmitted ++ t.fetched.filterMap id ++ ([] ++ s.hardware.queued) = _
        rw [STM32Hardware.pending, STM32Hardware.inFlight, ht, ← content_of_all _ hall,
          List.nil_append, List.append_assoc]
      · exact ⟨rfl, rfl⟩

theorem Line.new_intact (tbuf : Vector UInt8 tbuflen) (keep : Nat → Bool) :
    (Line.new tbuf).Intact keep := by
  have hempty : distance tbuflen 0 0 = 0 := by decide
  show [] ++ ([] ++ ringSlice tbuf.toList 0 (distance tbuflen 0 0)) = kept keep []
  rw [hempty, ringSlice_zero]
  rfl

/-- A safe step of an intact line: a write of fewer than 256 bytes is kept, and others are
dropped. -/
theorem Line.Intact.step_of_safe (h : s.Intact keep) (hvalid : s.hardware.Valid) {st : LineStep}
    (hsafe : s.Safe st)
    (hkeep : ∀ data, st = .write data → keep s.writes.length = decide (data.length < tbuflen)) :
    (s.step st).Intact keep := by
  cases st with
  | write data =>
    show s.transmitted ++ (s.hardware.write data).pending = kept keep (s.writes ++ [data])
    rw [STM32Hardware.write_pending_of_safe hvalid hsafe.1 hsafe.2, kept_append,
      hkeep data rfl, ← List.append_assoc, h]
    simp only [decide_eq_true_eq]
  | flush =>
    obtain ⟨hsame, hwrites⟩ := s.step_intact hvalid .flush nofun
    rw [Line.Intact, hsame, hwrites]
    exact h
  | fetch i =>
    obtain ⟨hsame, hwrites⟩ := s.step_intact hvalid (.fetch i) nofun
    rw [Line.Intact, hsame, hwrites]
    exact h
  | complete =>
    obtain ⟨hsame, hwrites⟩ := s.step_intact hvalid .complete nofun
    rw [Line.Intact, hsame, hwrites]
    exact h

/-- A step between two intact states is safe. -/
theorem Line.Intact.safe (h : s.Intact keep) (hvalid : s.hardware.Valid) {st : LineStep}
    (hnext : (s.step st).Intact keep) : s.Safe st := by
  cases st with
  | write data =>
    have hsame : s.transmitted ++ (s.hardware.write data).pending =
        kept keep (s.writes ++ [data]) := hnext
    rw [kept_append, ← h, List.append_assoc, List.append_right_inj] at hsame
    refine STM32Hardware.safe_of_write_pending hvalid ?_ hsame
    split
    · exact Or.inl rfl
    · exact Or.inr rfl
  | flush | fetch | complete => exact trivial

/-- The writes of a step. -/
def LineStep.written : LineStep → List (List UInt8)
  | .write data => [data]
  | _ => []

theorem Line.step_writes (s : Line) (st : LineStep) :
    (s.step st).writes = s.writes ++ st.written := by
  cases st with
  | write data => rfl
  | flush => exact (List.append_nil _).symm
  | fetch i =>
    show _ = s.writes ++ []
    rw [List.append_nil]
    unfold Line.step Line.fetch
    dsimp only
    split <;> rfl
  | complete =>
    show _ = s.writes ++ []
    rw [List.append_nil]
    unfold Line.step Line.complete
    dsimp only
    split
    · rfl
    · split <;> rfl

theorem Line.run_writes (s : Line) (steps : List LineStep) :
    (Runs.run Line.step s steps).writes = s.writes ++ steps.flatMap LineStep.written := by
  induction steps generalizing s with
  | nil => exact (List.append_nil _).symm
  | cons st rest ih => rw [run_cons, ih, s.step_writes, List.flatMap_cons, List.append_assoc]

end Runs

/-- A run is intact, with the same writes kept in all of its states, if and only if every write
in it is safe. -/
theorem intact_iff_safe (tbuf : Vector UInt8 tbuflen) (steps : List LineStep) :
    (∃ keep, Always Line.step (Line.Intact keep) (Line.new tbuf) steps) ↔
      Throughout Line.step Line.Safe (Line.new tbuf) steps := by
  have hvalid : Always Line.step (fun s => s.hardware.Valid) (Line.new tbuf) steps :=
    Always.of_step (STM32Hardware.new_valid tbuf) fun s st h => s.step_valid h st
  constructor
  · rintro ⟨keep, hintact⟩ done st hdone
    have hbefore := (List.prefix_append done [st]).trans hdone
    have hafter := hintact _ hdone
    rw [run_append] at hafter
    exact (hintact done hbefore).safe (hvalid done hbefore) hafter
  · intro hsafe
    -- a write is kept if it is shorter than the ring
    refine ⟨fun i => ((steps.flatMap LineStep.written)[i]?.any fun data => data.length < tbuflen),
      ?_⟩
    intro done
    induction done using List.reverseRecOn with
    | nil => exact fun _ => Line.new_intact tbuf _
    | append_singleton done st ih =>
      intro hdone
      have hbefore := (List.prefix_append done [st]).trans hdone
      rw [run_append]
      refine (ih hbefore).step_of_safe (hvalid done hbefore) (hsafe done st hdone) ?_
      intro data hdata
      subst hdata
      obtain ⟨rest, hrest⟩ := hdone
      have hwritten : steps.flatMap LineStep.written =
          done.flatMap LineStep.written ++ data :: rest.flatMap LineStep.written := by
        rw [← hrest, List.flatMap_append, List.flatMap_append]
        simp [LineStep.written]
      have hlength : (Runs.run Line.step (Line.new tbuf) done).writes.length =
          (done.flatMap LineStep.written).length := by
        rw [Line.run_writes]
        rfl
      rw [hlength, hwritten, List.getElem?_append_right (Nat.le_refl _), Nat.sub_self]
      rfl

/-- 8 bytes are written, and 300 before the first are read. -/
def overrunSteps : List LineStep :=
  [.write (List.replicate 8 1), .write (List.replicate 300 2)] ++
    (List.range 8).map .fetch ++ [.complete]

/-- 8 of the 300 bytes are sent, in place of the first write. -/
theorem overrun_not_intact :
    (Runs.run Line.step (Line.new (Vector.replicate tbuflen 0)) overrunSteps).transmitted =
        List.replicate 8 2 ∧
      ¬ ∃ keep, Always Line.step (Line.Intact keep) (Line.new (Vector.replicate tbuflen 0))
        overrunSteps := by
  have hlast :
    (Runs.run Line.step (Line.new (Vector.replicate tbuflen 0)) overrunSteps).transmitted =
      List.replicate 8 2 ∧
    (Runs.run Line.step (Line.new (Vector.replicate tbuflen 0)) overrunSteps).hardware.pending =
      [] ∧
    (Runs.run Line.step (Line.new (Vector.replicate tbuflen 0)) overrunSteps).writes =
      [List.replicate 8 1, List.replicate 300 2] := by
    decide +kernel
  obtain ⟨htransmitted, hpending, hwrites⟩ := hlast
  refine ⟨htransmitted, ?_⟩
  intro hintact
  obtain ⟨keep, halways⟩ := hintact
  have hkept := halways overrunSteps List.prefix_rfl
  have hboth := (kept_append keep [List.replicate 8 1] (List.replicate 300 2)).trans
    (congrArg (· ++ _) (kept_append keep [] (List.replicate 8 1)))
  rw [Line.Intact, htransmitted, hpending, hwrites, List.append_nil] at hkept
  have hlength := congrArg List.length (hkept.trans hboth)
  have hhead := congrArg List.head? (hkept.trans hboth)
  -- the length tells that only the first write is kept, but its bytes were not sent
  cases hfirst : keep 0 <;> cases hsecond : keep 1 <;>
    simp [kept, hfirst, hsecond, -List.reduceReplicate] at hlength hhead
  exact absurd hhead (by decide)

end Ros2Serial.Device
