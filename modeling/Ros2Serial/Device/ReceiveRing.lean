import Ros2Serial.Lib.Ring
import Ros2Serial.Lib.Runs

/-!
# The receive ring of the STM32

The DMA engine of `STM32Hardware` stores every byte that arrives in the ring `rbuf`,
whether the byte that it replaces has been read or not.  `read` takes the next byte
unless its index is where the engine stores next, so that a full round of unread
bytes looks like none.

* `CNDTR` is the counter of the engine, which counts down and starts again with
  `rbuflen` behind the last cell.
* `Reception` has a queue beside the ring, with what a `read` of it returns.
* `reads_exact_iff` says when every `read` of a run returns what the queue would.  No
  `read` may come when 128 bytes or more are unread, unless the byte that it
  finds in the cell is equal to the one that was lost.
-/

namespace Ros2Serial.Device

open Bytes Runs

/-! ## The hardware -/

/-- `rbuflen`. -/
def rbuflen : Nat := 128

/-- The members of `STM32Hardware` that are for reception, and `hdmarx->Instance->CNDTR`. -/
structure ReceiveRing where
  rbuf : List UInt8
  rind : Nat
  CNDTR : Nat
  deriving DecidableEq

namespace ReceiveRing

/-- The constructor, which leaves `rbuf` as it is, and `init`. -/
def new (rbuf : Vector UInt8 rbuflen) : ReceiveRing where
  rbuf := rbuf.toList
  rind := 0
  CNDTR := rbuflen

/-- `getRdmaInd`. -/
def getRdmaInd (h : ReceiveRing) : Nat := (rbuflen - h.CNDTR) &&& (rbuflen - 1)

/-- `read`. -/
def read (h : ReceiveRing) : Int × ReceiveRing :=
  if h.rind ≠ h.getRdmaInd then
    ((h.rbuf.getD h.rind default).toNat, { h with rind := (h.rind + 1) &&& (rbuflen - 1) })
  else (-1, h)

/-- The DMA engine stores a byte that arrives. -/
def store (data : UInt8) (h : ReceiveRing) : ReceiveRing :=
  { h with
    rbuf := h.rbuf.set (rbuflen - h.CNDTR) data
    CNDTR := if h.CNDTR = 1 then rbuflen else h.CNDTR - 1 }

end ReceiveRing

/-- `read` of a queue without a bound. -/
def readQueue : List UInt8 → Int × List UInt8
  | [] => (-1, [])
  | data :: queue => (data.toNat, queue)

/-- The ring, the queue, and what each of them has returned. -/
structure Reception where
  hardware : ReceiveRing
  queue : List UInt8
  returned : List Int
  expected : List Int
  deriving DecidableEq

inductive ReceptionStep
  | arrive (data : UInt8)
  | read
  deriving DecidableEq

namespace Reception

def new (rbuf : Vector UInt8 rbuflen) : Reception where
  hardware := .new rbuf
  queue := []
  returned := []
  expected := []

def step (s : Reception) : ReceptionStep → Reception
  | .arrive data => { s with hardware := s.hardware.store data, queue := s.queue ++ [data] }
  | .read =>
    let (c, hardware) := s.hardware.read
    let (data, queue) := readQueue s.queue
    { hardware := hardware
      queue := queue
      returned := s.returned ++ [c]
      expected := s.expected ++ [data] }

/-- Every `read` has returned what the queue would. -/
def Exact (s : Reception) : Prop := s.returned = s.expected

/-- What arrived last in the cell of the next byte. -/
def latest (queue : List UInt8) : Option UInt8 := queue[rbuflen * ((queue.length - 1) / rbuflen)]?

/-- A `read` finds the next byte, or one that is equal to it. -/
def Legible (s : Reception) : ReceptionStep → Prop
  | .arrive _ => True
  | .read =>
    s.queue.length < rbuflen ∨
      s.queue.length % rbuflen ≠ 0 ∧ latest s.queue = s.queue.head?

instance (s : Reception) (st : ReceptionStep) : Decidable (s.Legible st) :=
  match st with
  | .arrive _ => inferInstanceAs (Decidable True)
  | .read => inferInstanceAs (Decidable (_ ∨ _ ∧ _))

end Reception

/-! ## What a read finds -/

/-- The ring after a stream, of which some bytes were taken. -/
structure ReceiveRing.Behind (h : ReceiveRing) (received : List UInt8) (taken : Nat) : Prop where
  rbuf : h.rbuf.length = rbuflen
  lapped : Lapped h.rbuf received
  rind : h.rind = taken % rbuflen
  CNDTR : h.CNDTR = rbuflen - received.length % rbuflen

namespace ReceiveRing

variable {h : ReceiveRing} {received : List UInt8} {taken : Nat}

theorem and_rbuflen (n : Nat) : n &&& (rbuflen - 1) = n % rbuflen :=
  Nat.and_two_pow_sub_one_eq_mod n 7

theorem new_behind (rbuf : Vector UInt8 rbuflen) : (new rbuf).Behind [] 0 :=
  ⟨rbuf.length_toList, lapped_nil _, rfl, rfl⟩

/-- The engine stores next behind what has arrived. -/
theorem Behind.getRdmaInd (hb : h.Behind received taken) :
    h.getRdmaInd = received.length % rbuflen := by
  have hmod : received.length % rbuflen < rbuflen := Nat.mod_lt _ (by decide)
  have hsub : rbuflen - (rbuflen - received.length % rbuflen) = received.length % rbuflen := by
    omega
  rw [ReceiveRing.getRdmaInd, hb.CNDTR, hsub, and_rbuflen, Nat.mod_mod]

theorem Behind.store (hb : h.Behind received taken) (data : UInt8) :
    (h.store data).Behind (received ++ [data]) taken := by
  have hmod : received.length % rbuflen < rbuflen := Nat.mod_lt _ (by decide)
  have hindex : rbuflen - h.CNDTR = received.length % h.rbuf.length := by
    rw [hb.CNDTR, hb.rbuf]
    omega
  refine ⟨?_, ?_, hb.rind, ?_⟩
  · exact (List.length_set ..).trans hb.rbuf
  · show Lapped (h.rbuf.set (rbuflen - h.CNDTR) data) (received ++ [data])
    rw [hindex]
    exact hb.lapped.put (by rw [hb.rbuf]; decide) data
  · show (if h.CNDTR = 1 then rbuflen else h.CNDTR - 1) = _
    rw [List.length_append, List.length_singleton, hb.CNDTR]
    unfold rbuflen at *
    split <;> omega

/-- A byte is taken, whichever it is. -/
theorem Behind.take (hb : h.Behind received taken) :
    ReceiveRing.Behind { h with rind := (h.rind + 1) &&& (rbuflen - 1) } received (taken + 1) where
  rbuf := hb.rbuf
  lapped := hb.lapped
  rind := by
    dsimp only
    rw [and_rbuflen, hb.rind, Nat.mod_add_mod]
  CNDTR := hb.CNDTR

/-- The index of the next byte is where the engine stores next if whole rounds are unread. -/
theorem Behind.rind_eq_iff (hb : h.Behind received taken) (hle : taken ≤ received.length) :
    h.rind = h.getRdmaInd ↔ (received.length - taken) % rbuflen = 0 := by
  rw [hb.getRdmaInd, hb.rind]
  unfold rbuflen
  omega

/-- The cell of the next byte. -/
theorem Behind.cell (hb : h.Behind received taken) (hlt : taken < received.length) :
    some (h.rbuf.getD h.rind default) = Reception.latest (received.drop taken) := by
  have hcell := hb.lapped.getD (by rw [hb.rbuf]; decide) hlt
  have hdiv := Nat.div_add_mod (received.length - taken - 1) rbuflen
  rw [hb.rbuf] at hcell
  rw [hb.rind, hcell, Reception.latest, List.getElem?_drop, List.length_drop,
    List.getD_eq_getElem?_getD, List.getElem?_eq_getElem (by omega), Option.getD_some]

end ReceiveRing

/-! ## Runs -/

namespace Reception

variable {s : Reception}

/-- As long as the run is exact, the queue is what the ring is behind by. -/
def Sound (s : Reception) : Prop :=
  s.Exact → ∃ received taken, s.hardware.Behind received taken ∧ taken ≤ received.length ∧
    s.queue = received.drop taken

theorem new_sound (rbuf : Vector UInt8 rbuflen) : (new rbuf).Sound :=
  fun _ => ⟨[], 0, ReceiveRing.new_behind rbuf, Nat.le_refl 0, rfl⟩

/-- A run that is exact was exact before its last step. -/
theorem exact_of_step {st : ReceptionStep} (h : (s.step st).Exact) : s.Exact := by
  cases st with
  | arrive data => exact h
  | read => exact (List.append_inj' h rfl).1

/-- A read is exact if and only if it returns what the queue has first. -/
theorem exact_read_iff (h : s.Exact) :
    (s.step .read).Exact ↔ s.hardware.read.1 = (readQueue s.queue).1 := by
  show s.returned ++ [s.hardware.read.1] = s.expected ++ [(readQueue s.queue).1] ↔ _
  rw [show s.returned = s.expected from h, List.append_right_inj, List.singleton_inj]

/-- What `read` returns, and what the queue has first. -/
theorem read_eq_iff {received : List UInt8} {taken : Nat}
    (hb : s.hardware.Behind received taken) (hle : taken ≤ received.length)
    (hqueue : s.queue = received.drop taken) :
    s.hardware.read.1 = (readQueue s.queue).1 ↔ s.Legible .read := by
  have hlength : s.queue.length = received.length - taken := by rw [hqueue, List.length_drop]
  have hindex := hb.rind_eq_iff hle
  rw [← hlength] at hindex
  cases hcase : s.queue with
  | nil =>
    have hsame : s.hardware.rind = s.hardware.getRdmaInd := hindex.mpr (by rw [hcase]; rfl)
    refine iff_of_true ?_ (Or.inl ?_)
    · rw [ReceiveRing.read, if_neg (not_not_intro hsame)]
      rfl
    · rw [hcase]
      decide
  | cons data rest =>
    rw [hcase, List.length_cons] at hlength
    have hcell : some (s.hardware.rbuf.getD s.hardware.rind default) = latest s.queue := by
      rw [hqueue]
      exact hb.cell (by omega)
    show _ ↔ s.queue.length < rbuflen ∨
      s.queue.length % rbuflen ≠ 0 ∧ latest s.queue = s.queue.head?
    by_cases hround : s.queue.length % rbuflen = 0
    · -- a whole round is unread: nothing seems to be there
      have hlong : ¬ s.queue.length < rbuflen := by
        intro hshort
        rw [Nat.mod_eq_of_lt hshort, hcase] at hround
        exact absurd hround (Nat.succ_ne_zero _)
      rw [ReceiveRing.read, if_neg (not_not_intro (hindex.mpr hround))]
      refine iff_of_false ?_ (not_or.mpr ⟨hlong, fun h => h.1 hround⟩)
      have hdata : (0 : Int) ≤ data.toNat := Int.natCast_nonneg _
      show (-1 : Int) ≠ data.toNat
      omega
    · rw [ReceiveRing.read, if_pos (fun hsame => hround (hindex.mp hsame))]
      have hfirst : ((s.hardware.rbuf.getD s.hardware.rind default).toNat : Int) = data.toNat ↔
          latest s.queue = s.queue.head? := by
        rw [← hcell, hcase, List.head?_cons, Option.some_inj, Int.natCast_inj, UInt8.toNat_inj]
      refine hfirst.trans ⟨fun heq => Or.inr ⟨hround, heq⟩, ?_⟩
      rintro (hshort | ⟨-, heq⟩)
      · -- less than a round is unread: nothing was lost
        have hdiv : (s.queue.length - 1) / rbuflen = 0 := Nat.div_eq_of_lt (by omega)
        rw [latest, hdiv, Nat.mul_zero, hcase]
        rfl
      · exact heq

theorem Sound.step (h : s.Sound) (st : ReceptionStep) : (s.step st).Sound := by
  intro hexact
  have hbefore := exact_of_step hexact
  obtain ⟨received, taken, hb, hle, hqueue⟩ := h hbefore
  cases st with
  | arrive data =>
    refine ⟨received ++ [data], taken, hb.store data, ?_, ?_⟩
    · rw [List.length_append]
      omega
    · show s.queue ++ [data] = _
      rw [hqueue, List.drop_append_of_le_length hle]
  | read =>
    have hread := (exact_read_iff hbefore).mp hexact
    have hindex := hb.rind_eq_iff hle
    cases hcase : s.queue with
    | nil =>
      have hnil : received.length - taken = 0 := by
        rw [← List.length_drop, ← hqueue, hcase, List.length_nil]
      have hsame : s.hardware.rind = s.hardware.getRdmaInd := hindex.mpr (by rw [hnil]; rfl)
      refine ⟨received, taken, ?_, hle, ?_⟩
      · show s.hardware.read.2.Behind received taken
        rw [ReceiveRing.read, if_neg (not_not_intro hsame)]
        exact hb
      · show (readQueue s.queue).2 = _
        rw [← hqueue, hcase]
        rfl
    | cons data rest =>
      have hlength : received.length - taken = rest.length + 1 := by
        rw [← List.length_drop, ← hqueue, hcase, List.length_cons]
      -- a byte was returned, so that the index has moved
      have hne : s.hardware.rind ≠ s.hardware.getRdmaInd := by
        intro hsame
        rw [ReceiveRing.read, if_neg (not_not_intro hsame), hcase] at hread
        have hdata : (0 : Int) ≤ data.toNat := Int.natCast_nonneg _
        change (-1 : Int) = data.toNat at hread
        omega
      refine ⟨received, taken + 1, ?_, by omega, ?_⟩
      · show s.hardware.read.2.Behind received (taken + 1)
        rw [ReceiveRing.read, if_pos hne]
        exact hb.take
      · show (readQueue s.queue).2 = _
        rw [← List.drop_drop, ← hqueue, hcase]
        rfl

/-- The loop of `spinOnce`, which calls `read` until nothing is left: if less than a round is
unread, it gets all of it. -/
theorem Sound.drain (hsound : s.Sound) (hexact : s.Exact) (hshort : s.queue.length < rbuflen) :
    (Runs.run Reception.step s (List.replicate (s.queue.length + 1) .read)).returned =
      s.returned ++ (s.queue.map fun data => (data.toNat : Int)) ++ [-1] := by
  generalize hqueue : s.queue = queue at hshort ⊢
  induction queue generalizing s with
  | nil =>
    obtain ⟨received, taken, hb, hle, hdrop⟩ := hsound hexact
    have hread := (read_eq_iff hb hle hdrop).mpr (Or.inl (by rw [hqueue]; exact hshort))
    rw [hqueue] at hread
    show s.returned ++ [s.hardware.read.1] = s.returned ++ [] ++ [-1]
    rw [hread, List.append_nil]
    rfl
  | cons data rest ih =>
    obtain ⟨received, taken, hb, hle, hdrop⟩ := hsound hexact
    have hread := (read_eq_iff hb hle hdrop).mpr (Or.inl (by rw [hqueue]; exact hshort))
    have hnext : (s.step .read).queue = rest := by
      show (readQueue s.queue).2 = rest
      rw [hqueue]
      rfl
    have hrest := ih (hsound.step .read) ((exact_read_iff hexact).mpr hread) hnext
      (Nat.lt_of_succ_lt hshort)
    rw [List.length_cons, List.replicate_succ, Runs.run_cons, hrest]
    show s.returned ++ [s.hardware.read.1] ++ _ ++ [-1] = _
    rw [hread, hqueue, List.map_cons, List.append_assoc s.returned]
    rfl

end Reception

/-- Every `read` of a run returns what a queue of the bytes that arrive would, if and only if no
`read` comes when 128 bytes or more are unread, except where it finds a byte that is equal to
the one that was lost. -/
theorem reads_exact_iff (rbuf : Vector UInt8 rbuflen) (steps : List ReceptionStep) :
    Always Reception.step Reception.Exact (Reception.new rbuf) steps ↔
      Throughout Reception.step Reception.Legible (Reception.new rbuf) steps := by
  refine always_iff_throughout (I := Reception.Sound) (Reception.new_sound rbuf)
    (fun s st h => h.step st) rfl ?_
  intro s st hsound hexact
  cases st with
  | arrive data => exact iff_of_true hexact trivial
  | read =>
    obtain ⟨received, taken, hb, hle, hqueue⟩ := hsound hexact
    exact (Reception.exact_read_iff hexact).trans (Reception.read_eq_iff hb hle hqueue)

/-- A whole round of unread bytes looks like none. -/
example :
    (Runs.run Reception.step (Reception.new (Vector.replicate rbuflen 0))
      (List.replicate 128 (.arrive 1) ++ [.read])).returned = [-1] := by
  decide +kernel

end Ros2Serial.Device
