import Mathlib.Logic.Function.Basic
import DistributedCache.Lib.Linearizability
import DistributedCache.Lib.Pool
import DistributedCache.Lib.Transition

/-!
# Objects behind locks

The data of an object are in several parts, each behind a reader-writer lock of its own.  An
operation takes the lock of one part, works on that part in any number of steps, and lets go of the
lock; any number of operations are under way at once.  If every operation, on its own, does what a
specification says, then the object is linearizable: an operation takes effect when it lets go of
its lock.
-/

namespace LockedObject

open Linearizability Pool Transition

/-! ## The system -/

/-- A reader-writer lock. -/
structure RWMutex where
  writer : Bool
  readers : Nat
  deriving DecidableEq, Repr

namespace RWMutex

def free : RWMutex := ⟨false, 0⟩

/-- `none` while the lock has to be waited for. -/
def acquire (m : RWMutex) (writes : Bool) : Option RWMutex :=
  if writes then
    if m.writer = false ∧ m.readers = 0 then some { m with writer := true } else none
  else if m.writer = false then some { m with readers := m.readers + 1 } else none

def release (m : RWMutex) (writes : Bool) : RWMutex :=
  if writes then { m with writer := false } else { m with readers := m.readers - 1 }

theorem acquire_cases {m m' : RWMutex} {writes : Bool} (h : m.acquire writes = some m') :
    m.writer = false ∧ (writes = true ∧ m.readers = 0 ∧ m' = { m with writer := true } ∨
      writes = false ∧ m' = { m with readers := m.readers + 1 }) := by
  cases writes with
  | true =>
    obtain ⟨⟨hwriter, hreaders⟩, h⟩ := Option.ite_none_right_eq_some.mp h
    exact ⟨hwriter, Or.inl ⟨rfl, hreaders, (Option.some.inj h).symm⟩⟩
  | false =>
    obtain ⟨hwriter, h⟩ := Option.ite_none_right_eq_some.mp h
    exact ⟨hwriter, Or.inr ⟨rfl, (Option.some.inj h).symm⟩⟩

end RWMutex

/-- What the operations do between taking a lock and letting go of it. `L` is what an operation
keeps to itself meanwhile, and `C` is what a step may choose. -/
structure Object (ι D Op L C R : Type*) where
  part : Op → ι
  writes : Op → Bool
  enter : Op → L
  work : Op → L → D → C → Option (L × D)
  /-- The result, once the work is done. -/
  result : Op → L → D → Option R

inductive Stage (L R : Type*) where
  | invoked
  | inside (l : L)
  | left (r : R)
  | returned
  deriving DecidableEq, Repr

structure Call (Op L R : Type*) where
  op : Op
  stage : Stage L R
  deriving DecidableEq, Repr

structure State (ι D Op L R : Type*) where
  data : ι → D
  mutex : ι → RWMutex
  calls : List (Call Op L R)
  history : List (Event Op R)

inductive Action (Op C : Type*) where
  | invoke (op : Op)
  | acquire (k : Nat)
  | work (k : Nat) (choice : C)
  | release (k : Nat)
  | respond (k : Nat)
  deriving DecidableEq, Repr

variable {ι D Op L C R : Type*} [DecidableEq ι]

def start (init : ι → D) : State ι D Op L R := ⟨init, fun _ ↦ .free, [], []⟩

namespace State

/-- Call `k` goes on to another stage. -/
def goes (s : State ι D Op L R) (k : Nat) (call : Call Op L R) (stage : Stage L R) :
    State ι D Op L R :=
  { s with calls := s.calls.set k { call with stage } }

end State

namespace Object

variable (o : Object ι D Op L C R)

def step (s : State ι D Op L R) : Action Op C → Option (State ι D Op L R)
  | .invoke op => some { s with
      calls := s.calls ++ [⟨op, .invoked⟩]
      history := s.history ++ [.invoked s.calls.length op] }
  | .acquire k => s.calls[k]?.bind fun call ↦
    match call.stage with
    | .invoked =>
      ((s.mutex (o.part call.op)).acquire (o.writes call.op)).map fun m ↦
        { s.goes k call (.inside (o.enter call.op)) with
          mutex := Function.update s.mutex (o.part call.op) m }
    | _ => none
  | .work k choice => s.calls[k]?.bind fun call ↦
    match call.stage with
    | .inside l =>
      (o.work call.op l (s.data (o.part call.op)) choice).map fun done ↦
        { s.goes k call (.inside done.1) with
          data := Function.update s.data (o.part call.op) done.2 }
    | _ => none
  | .release k => s.calls[k]?.bind fun call ↦
    match call.stage with
    | .inside l =>
      (o.result call.op l (s.data (o.part call.op))).map fun r ↦
        { s.goes k call (.left r) with
          mutex := Function.update s.mutex (o.part call.op)
            ((s.mutex (o.part call.op)).release (o.writes call.op)) }
    | _ => none
  | .respond k => s.calls[k]?.bind fun call ↦
    match call.stage with
    | .left r => some { s.goes k call .returned with history := s.history ++ [.returned k r] }
    | _ => none

inductive StepCase (s : State ι D Op L R) : Action Op C → State ι D Op L R → Prop
  | invokes (op : Op) : StepCase s (.invoke op) { s with
      calls := s.calls ++ [⟨op, .invoked⟩]
      history := s.history ++ [.invoked s.calls.length op] }
  | acquires {k : Nat} {call : Call Op L R} {m : RWMutex} (hcall : s.calls[k]? = some call)
      (hstage : call.stage = .invoked)
      (hlock : (s.mutex (o.part call.op)).acquire (o.writes call.op) = some m) :
      StepCase s (.acquire k) { s.goes k call (.inside (o.enter call.op)) with
        mutex := Function.update s.mutex (o.part call.op) m }
  | works {k : Nat} {choice : C} {call : Call Op L R} {l l' : L} {d : D}
      (hcall : s.calls[k]? = some call) (hstage : call.stage = .inside l)
      (hwork : o.work call.op l (s.data (o.part call.op)) choice = some (l', d)) :
      StepCase s (.work k choice) { s.goes k call (.inside l') with
        data := Function.update s.data (o.part call.op) d }
  | releases {k : Nat} {call : Call Op L R} {l : L} {r : R} (hcall : s.calls[k]? = some call)
      (hstage : call.stage = .inside l)
      (hresult : o.result call.op l (s.data (o.part call.op)) = some r) :
      StepCase s (.release k) { s.goes k call (.left r) with
        mutex := Function.update s.mutex (o.part call.op)
          ((s.mutex (o.part call.op)).release (o.writes call.op)) }
  | responds {k : Nat} {call : Call Op L R} {r : R} (hcall : s.calls[k]? = some call)
      (hstage : call.stage = .left r) :
      StepCase s (.respond k)
        { s.goes k call .returned with history := s.history ++ [.returned k r] }

variable {o} {s s' : State ι D Op L R} {a : Action Op C} {call : Call Op L R}

theorem step_cases (h : o.step s a = some s') : o.StepCase s a s' := by
  cases a with
  | invoke op =>
    cases h
    exact .invokes op
  | acquire k =>
    obtain ⟨call, hcall, h⟩ := Option.bind_eq_some_iff.mp h
    cases hstage : call.stage with
    | invoked =>
      rw [hstage] at h
      obtain ⟨m, hm, rfl⟩ := Option.map_eq_some_iff.mp h
      exact .acquires hcall hstage hm
    | _ =>
      rw [hstage] at h
      cases h
  | work k choice =>
    obtain ⟨call, hcall, h⟩ := Option.bind_eq_some_iff.mp h
    cases hstage : call.stage with
    | inside l =>
      rw [hstage] at h
      obtain ⟨⟨l', d⟩, hwork, rfl⟩ := Option.map_eq_some_iff.mp h
      exact .works hcall hstage hwork
    | _ =>
      rw [hstage] at h
      cases h
  | release k =>
    obtain ⟨call, hcall, h⟩ := Option.bind_eq_some_iff.mp h
    cases hstage : call.stage with
    | inside l =>
      rw [hstage] at h
      obtain ⟨r, hr, rfl⟩ := Option.map_eq_some_iff.mp h
      exact .releases hcall hstage hr
    | _ =>
      rw [hstage] at h
      cases h
  | respond k =>
    obtain ⟨call, hcall, h⟩ := Option.bind_eq_some_iff.mp h
    cases hstage : call.stage with
    | left r =>
      rw [hstage] at h
      cases h
      exact .responds hcall hstage
    | _ =>
      rw [hstage] at h
      cases h

/-! ## What an operation does on its own -/

variable (o)

/-- Every operation does what the specification says when nobody else works on its part.
`Running op d₀ l d` holds in the middle of an operation that has found `d₀`. -/
structure Correct (spec : D → Op → D × R) (Running : Op → D → L → D → Prop) : Prop where
  enter : ∀ op d, Running op d (o.enter op) d
  work : ∀ {op d₀ l d choice l' d'}, Running op d₀ l d → o.work op l d choice = some (l', d') →
    Running op d₀ l' d'
  result : ∀ {op d₀ l d r}, Running op d₀ l d → o.result op l d = some r → spec d₀ op = (d, r)
  reads : ∀ {op l d choice l' d'}, o.writes op = false → o.work op l d choice = some (l', d') →
    d' = d

/-- The specification of one part, for all of them. -/
def onParts (spec : D → Op → D × R) (a : ι → D) (op : Op) : (ι → D) × R :=
  (Function.update a (o.part op) (spec (a (o.part op)) op).1, (spec (a (o.part op)) op).2)

/-! ## Who is inside -/

/-- The call holds the lock of part `i`, for writing or not. -/
def holds (i : ι) (writes : Bool) (call : Call Op L R) : Nat :=
  match call.stage with
  | .inside _ => if o.part call.op = i ∧ o.writes call.op = writes then 1 else 0
  | _ => 0

variable {o}

/-- The locks agree with the calls that are inside. -/
structure Locked (o : Object ι D Op L C R) (s : State ι D Op L R) : Prop where
  readers : ∀ i, (s.mutex i).readers = weigh (o.holds i false) s.calls
  writer : ∀ i, (s.mutex i).writer.toNat = weigh (o.holds i true) s.calls
  exclusive : ∀ i, (s.mutex i).writer = true → (s.mutex i).readers = 0

theorem holds_of_ne {i : ι} (call : Call Op L R) (h : o.part call.op ≠ i) (writes : Bool) :
    o.holds i writes call = 0 := by
  unfold holds
  split
  · exact if_neg fun hpart ↦ h hpart.1
  · rfl

theorem holds_self (o : Object ι D Op L C R) {l : L} (h : call.stage = .inside l) :
    o.holds (o.part call.op) (o.writes call.op) call = 1 := by
  unfold holds
  rw [h]
  exact if_pos ⟨rfl, rfl⟩

theorem holds_inside {op : Op} {l : L} {writes : Bool} :
    o.holds (o.part op) writes (⟨op, .inside l⟩ : Call Op L R) =
      if o.writes op = writes then 1 else 0 := by
  show (if _ ∧ _ then 1 else 0) = _
  simp only [true_and]

theorem holds_outside (h : call.stage = .invoked) (i : ι) (writes : Bool) :
    o.holds i writes call = 0 := by
  unfold holds
  rw [h]

section

variable {k : Nat} {call : Call Op L R} {st : Stage L R} {m : RWMutex} {l : L}

/-- What a lock counts goes along with a call that moves. -/
theorem count_change (count : RWMutex → Nat) {writes : Bool}
    (h : ∀ i, count (s.mutex i) = weigh (o.holds i writes) s.calls)
    (hcall : s.calls[k]? = some call)
    (hm : count m + o.holds (o.part call.op) writes call =
      count (s.mutex (o.part call.op)) + o.holds (o.part call.op) writes { call with stage := st })
    (i : ι) : count (Function.update s.mutex (o.part call.op) m i) =
      weigh (o.holds i writes) (s.calls.set k { call with stage := st }) := by
  have hset := weigh_set (o.holds i writes) hcall { call with stage := st }
  have hbefore := h i
  by_cases hi : o.part call.op = i
  · subst hi
    rw [Function.update_self]
    omega
  · have hold : o.holds i writes call = 0 := holds_of_ne call hi writes
    have hnew : o.holds i writes { call with stage := st } = 0 :=
      holds_of_ne { call with stage := st } hi writes
    rw [Function.update_of_ne (Ne.symm hi)]
    omega

/-- A call moves and the lock of its part changes accordingly. -/
theorem Locked.change (h : o.Locked s) (hcall : s.calls[k]? = some call)
    (hreaders : m.readers + o.holds (o.part call.op) false call =
      (s.mutex (o.part call.op)).readers + o.holds (o.part call.op) false { call with stage := st })
    (hwriter : m.writer.toNat + o.holds (o.part call.op) true call =
      (s.mutex (o.part call.op)).writer.toNat +
        o.holds (o.part call.op) true { call with stage := st })
    (hexclusive : m.writer = true → m.readers = 0) (data : ι → D) (history : List (Event Op R)) :
    o.Locked ⟨data, Function.update s.mutex (o.part call.op) m,
      s.calls.set k { call with stage := st }, history⟩ := by
  constructor
  · exact count_change RWMutex.readers h.readers hcall hreaders
  · exact count_change (fun m ↦ m.writer.toNat) h.writer hcall hwriter
  · intro i hi
    dsimp only at hi ⊢
    by_cases heq : o.part call.op = i
    · subst heq
      rw [Function.update_self] at hi ⊢
      exact hexclusive hi
    · rw [Function.update_of_ne (Ne.symm heq)] at hi ⊢
      exact h.exclusive i hi

theorem Locked.acquired (h : o.Locked s) (hcall : s.calls[k]? = some call)
    (hstage : call.stage = .invoked)
    (hlock : (s.mutex (o.part call.op)).acquire (o.writes call.op) = some m) (l : L) (data : ι → D)
    (history : List (Event Op R)) :
    o.Locked ⟨data, Function.update s.mutex (o.part call.op) m,
      s.calls.set k { call with stage := .inside l }, history⟩ := by
  have hold : ∀ writes, o.holds (o.part call.op) writes call = 0 := holds_outside hstage _
  obtain ⟨hfree, ⟨hwrites, hreaders, rfl⟩ | ⟨hwrites, rfl⟩⟩ := RWMutex.acquire_cases hlock
  · apply h.change hcall
    · rw [hold, holds_inside, hwrites]
      rfl
    · rw [hold, holds_inside, hwrites, hfree]
      rfl
    · intro _
      exact hreaders
  · apply h.change hcall
    · rw [hold, holds_inside, hwrites]
      rfl
    · rw [hold, holds_inside, hwrites, hfree]
      rfl
    · intro hwriter
      rw [hfree] at hwriter
      cases hwriter

/-- A call moves without letting go of its lock. -/
theorem Locked.stay (h : o.Locked s) (hcall : s.calls[k]? = some call)
    (hsame : ∀ writes, o.holds (o.part call.op) writes { call with stage := st } =
      o.holds (o.part call.op) writes call) (data : ι → D) (history : List (Event Op R)) :
    o.Locked ⟨data, s.mutex, s.calls.set k { call with stage := st }, history⟩ := by
  have hchange := h.change hcall (by rw [hsame]) (by rw [hsame]) (h.exclusive _) data history
  rwa [Function.update_eq_self] at hchange

theorem Locked.writing (h : o.Locked s) (hcall : s.calls[k]? = some call)
    (hstage : call.stage = .inside l) (hwrites : o.writes call.op = true) :
    (s.mutex (o.part call.op)).writer = true := by
  have hself := holds_self o hstage
  rw [hwrites] at hself
  have hle := le_weigh (w := o.holds (o.part call.op) true) (List.mem_of_getElem? hcall)
  rw [← h.writer, hself] at hle
  cases hm : (s.mutex (o.part call.op)).writer with
  | true => rfl
  | false =>
    rw [hm] at hle
    cases hle

theorem Locked.reading (h : o.Locked s) (hcall : s.calls[k]? = some call)
    (hstage : call.stage = .inside l) (hwrites : o.writes call.op = false) :
    (s.mutex (o.part call.op)).writer = false := by
  have hself := holds_self o hstage
  rw [hwrites] at hself
  have hle := le_weigh (w := o.holds (o.part call.op) false) (List.mem_of_getElem? hcall)
  rw [← h.readers, hself] at hle
  cases hm : (s.mutex (o.part call.op)).writer with
  | false => rfl
  | true =>
    rw [h.exclusive _ hm] at hle
    cases hle

theorem Locked.released (h : o.Locked s) (hcall : s.calls[k]? = some call)
    (hstage : call.stage = .inside l) (r : R) (data : ι → D) (history : List (Event Op R)) :
    o.Locked ⟨data, Function.update s.mutex (o.part call.op)
      ((s.mutex (o.part call.op)).release (o.writes call.op)),
      s.calls.set k { call with stage := .left r }, history⟩ := by
  have hself := holds_self o hstage
  have hnew : ∀ writes, o.holds (o.part call.op) writes { call with stage := .left r } = 0 :=
    fun _ ↦ rfl
  have hcount := le_weigh (w := o.holds (o.part call.op) (o.writes call.op))
    (List.mem_of_getElem? hcall)
  cases hwrites : o.writes call.op with
  | true =>
    have hwriter := h.writing hcall hstage hwrites
    have hother : o.holds (o.part call.op) false call = 0 := by
      unfold holds
      rw [hstage, hwrites]
      simp only [reduceCtorEq, and_false, if_false]
    rw [hwrites] at hself
    apply h.change hcall
    · rw [hnew, hother]
      rfl
    · rw [hnew, hself, hwriter]
      rfl
    · nofun
  | false =>
    have hwriter := h.reading hcall hstage hwrites
    have hother : o.holds (o.part call.op) true call = 0 := by
      unfold holds
      rw [hstage, hwrites]
      simp only [reduceCtorEq, and_false, if_false]
    rw [hwrites] at hself hcount
    rw [hself, ← h.readers] at hcount
    apply h.change hcall
    · rw [hnew, hself]
      exact Nat.sub_add_cancel hcount
    · rw [hnew, hother]
      rfl
    · intro htrue
      rw [RWMutex.release] at htrue
      simp only [hwriter, reduceCtorEq, if_false] at htrue

/-- While an operation writes, nobody else is inside its part. -/
theorem Locked.alone (h : o.Locked s) (hcall : s.calls[k]? = some call) {l' : L}
    (hstage : call.stage = .inside l) (hwrites : o.writes call.op = true) {k' : Nat}
    {other : Call Op L R} (hother : s.calls[k']? = some other) (hne : k ≠ k')
    (hinside : other.stage = .inside l') : o.part other.op ≠ o.part call.op := by
  intro hpart
  have hself := holds_self o hstage
  have hotherSelf := holds_self o hinside
  rw [hwrites] at hself
  rw [hpart] at hotherSelf
  have hmem : other ∈ s.calls.set k { call with stage := .returned } := by
    apply List.mem_of_getElem? (i := k')
    rw [List.getElem?_set_ne hne]
    exact hother
  have hwriter := h.writing hcall hstage hwrites
  have hone : (s.mutex (o.part call.op)).writer.toNat = 1 := by rw [hwriter]; rfl
  rw [h.writer] at hone
  have hnone := h.exclusive _ hwriter
  rw [h.readers] at hnone
  cases hkind : o.writes other.op with
  | true =>
    rw [hkind] at hotherSelf
    cases eq_or_add_le_weigh (o.holds (o.part call.op) true) hcall hmem with
    | inl heq =>
      rw [heq] at hinside
      cases hinside
    | inr hle => omega
  | false =>
    rw [hkind] at hotherSelf
    have hle := le_weigh (w := o.holds (o.part call.op) false) (List.mem_of_getElem? hother)
    omega

end

/-! ## Points of effect -/

variable {spec : D → Op → D × R} {Running : Op → D → L → D → Prop} {init a : ι → D}
  {order : List (Entry Op R)}

variable (o Running) in
/-- What is known of call `k` when the operations in `order` have taken effect and have left `a`. -/
def Tracked (s : State ι D Op L R) (order : List (Entry Op R)) (a : ι → D) (k : Nat)
    (call : Call Op L R) : Prop :=
  .invoked k call.op ∈ s.history ∧
    match call.stage with
    | .invoked => k ∉ calls order
    | .inside l =>
      k ∉ calls order ∧ Running call.op (a (o.part call.op)) l (s.data (o.part call.op))
    | .left r => ⟨k, call.op, r⟩ ∈ order
    | .returned => True

variable (o spec Running init) in
structure Follows (s : State ι D Op L R) (order : List (Entry Op R)) (a : ι → D) : Prop where
  legal : Legal (o.onParts spec) init order a
  explains : Explains order s.history
  locked : o.Locked s
  known : ∀ j op, .invoked j op ∈ s.history → j < s.calls.length
  tracked : ∀ k call, s.calls[k]? = some call → o.Tracked Running s order a k call
  settled : ∀ i, (s.mutex i).writer = false → s.data i = a i

theorem follows_start : o.Follows spec Running init (start init) [] init where
  legal := .nil
  explains := .empty
  locked := ⟨fun _ ↦ rfl, fun _ ↦ rfl, nofun⟩
  known := nofun
  tracked := nofun
  settled _ _ := rfl

omit [DecidableEq ι] in
/-- A call that does not move keeps its place, if what it works on stays as it is. -/
theorem Tracked.mono {k : Nat} {order' : List (Entry Op R)} {a' : ι → D}
    (h : o.Tracked Running s order a k call) (hhistory : ∀ e ∈ s.history, e ∈ s'.history)
    (horder : ∀ e ∈ order, e ∈ order') (hnot : k ∉ calls order → k ∉ calls order')
    (hrunning : ∀ l, call.stage = .inside l → a' (o.part call.op) = a (o.part call.op) ∧ s'.data
      (o.part call.op) = s.data (o.part call.op)) : o.Tracked Running s' order' a' k call := by
  obtain ⟨hinvoked, h⟩ := h
  refine ⟨hhistory _ hinvoked, ?_⟩
  cases hstage : call.stage with
  | invoked =>
    rw [hstage] at h
    exact hnot h
  | inside l =>
    rw [hstage] at h
    obtain ⟨ha, hdata⟩ := hrunning l hstage
    show k ∉ calls order' ∧ Running _ _ _ _
    rw [ha, hdata]
    exact ⟨hnot h.1, h.2⟩
  | left r =>
    rw [hstage] at h
    exact horder _ h
  | returned => trivial

theorem Follows.invokes (h : o.Follows spec Running init s order a) (op : Op) :
    o.Follows spec Running init { s with
      calls := s.calls ++ [⟨op, .invoked⟩]
      history := s.history ++ [.invoked s.calls.length op] } order a where
  legal := h.legal
  explains := by
    apply h.explains.invoke
    intro op' hmem
    exact Nat.lt_irrefl _ (h.known _ op' hmem)
  locked := by
    constructor
    · intro i
      rw [weigh_append_singleton]
      exact h.locked.readers i
    · intro i
      rw [weigh_append_singleton]
      exact h.locked.writer i
    · exact h.locked.exclusive
  known j op' hmem := by
    rw [List.length_append]
    cases List.mem_append.mp hmem with
    | inl hmem => exact Nat.lt_succ_of_lt (h.known j op' hmem)
    | inr hmem =>
      cases List.mem_singleton.mp hmem
      exact Nat.lt_succ_self _
  tracked k call hcall := by
    by_cases hk : k < s.calls.length
    · rw [List.getElem?_append_left hk] at hcall
      apply (h.tracked k call hcall).mono
      · intro e he
        exact List.mem_append_left _ he
      · intro e he
        exact he
      · exact id
      · intro _ _
        exact ⟨rfl, rfl⟩
    · -- the new call
      have hlt := (List.getElem?_eq_some_iff.mp hcall).1
      rw [List.length_append, List.length_singleton] at hlt
      have hk : k = s.calls.length := by omega
      subst hk
      rw [List.getElem?_concat_length] at hcall
      cases hcall
      refine ⟨List.mem_append_right _ List.mem_cons_self, ?_⟩
      intro hmem
      obtain ⟨op', hop'⟩ := h.explains.exists_invoked hmem
      exact Nat.lt_irrefl _ (h.known _ op' hop')
  settled := h.settled

section

variable {k : Nat} {call : Call Op L R} {st : Stage L R}

omit [DecidableEq ι] in
/-- Call `k` moves: it is tracked in its new place, and the others as before. -/
theorem tracked_set {order' : List (Entry Op R)} {a' : ι → D}
    (hcall : s.calls[k]? = some call) (hcalls : s'.calls = s.calls.set k { call with stage := st })
    (hself : o.Tracked Running s' order' a' k { call with stage := st })
    (hother : ∀ j other, k ≠ j → s.calls[j]? = some other →
      o.Tracked Running s' order' a' j other) :
    ∀ j other, s'.calls[j]? = some other → o.Tracked Running s' order' a' j other := by
  intro j other hj
  rw [hcalls] at hj
  by_cases hkj : k = j
  · subst hkj
    rw [get_set hcall] at hj
    cases hj
    exact hself
  · rw [List.getElem?_set_ne hkj] at hj
    exact hother j other hkj hj

theorem Follows.acquires (ho : o.Correct spec Running) (h : o.Follows spec Running init s order a)
    {m : RWMutex} (hcall : s.calls[k]? = some call) (hstage : call.stage = .invoked)
    (hlock : (s.mutex (o.part call.op)).acquire (o.writes call.op) = some m) :
    o.Follows spec Running init { s.goes k call (.inside (o.enter call.op)) with
      mutex := Function.update s.mutex (o.part call.op) m } order a where
  legal := h.legal
  explains := h.explains
  locked := h.locked.acquired hcall hstage hlock _ _ _
  known j op hmem := by
    show j < (s.calls.set _ _).length
    rw [List.length_set]
    exact h.known j op hmem
  tracked := by
    apply tracked_set hcall rfl
    · -- it finds what the operations before it have left
      have hdata := h.settled _ (RWMutex.acquire_cases hlock).1
      obtain ⟨hinvoked, hnew⟩ := h.tracked k call hcall
      rw [hstage] at hnew
      refine ⟨hinvoked, hnew, ?_⟩
      show Running call.op (a _) (o.enter call.op) (s.data _)
      rw [hdata]
      exact ho.enter _ _
    · intro j other _ hother
      exact (h.tracked j other hother).mono (fun _ he ↦ he) (fun _ he ↦ he) id
        fun _ _ ↦ ⟨rfl, rfl⟩
  settled i hi := by
    by_cases heq : i = o.part call.op
    · subst heq
      exact h.settled _ (RWMutex.acquire_cases hlock).1
    · dsimp only at hi
      rw [Function.update_of_ne heq] at hi
      exact h.settled i hi

theorem Follows.works (ho : o.Correct spec Running) (h : o.Follows spec Running init s order a)
    {l l' : L} {d : D} {choice : C} (hcall : s.calls[k]? = some call)
    (hstage : call.stage = .inside l)
    (hwork : o.work call.op l (s.data (o.part call.op)) choice = some (l', d)) :
    o.Follows spec Running init { s.goes k call (.inside l') with
      data := Function.update s.data (o.part call.op) d } order a where
  legal := h.legal
  explains := h.explains
  locked := by
    apply h.locked.stay hcall
    intro writes
    unfold holds
    rw [hstage]
  known j op hmem := by
    show j < (s.calls.set _ _).length
    rw [List.length_set]
    exact h.known j op hmem
  tracked := by
    apply tracked_set hcall rfl
    · obtain ⟨hinvoked, hrunning⟩ := h.tracked k call hcall
      rw [hstage] at hrunning
      refine ⟨hinvoked, hrunning.1, ?_⟩
      show Running call.op (a _) l' (Function.update s.data _ d _)
      rw [Function.update_self]
      exact ho.work hrunning.2 hwork
    · intro j other hne hother
      refine (h.tracked j other hother).mono (fun _ he ↦ he) (fun _ he ↦ he) id ?_
      intro l'' hinside
      refine ⟨rfl, ?_⟩
      show Function.update s.data _ d _ = _
      cases hwrites : o.writes call.op with
      | true =>
        -- nobody else is inside
        rw [Function.update_of_ne (h.locked.alone hcall hstage hwrites hother hne hinside)]
      | false => rw [ho.reads hwrites hwork, Function.update_eq_self]
  settled i hi := by
    show Function.update s.data _ d i = a i
    by_cases heq : i = o.part call.op
    · subst heq
      cases hwrites : o.writes call.op with
      | true =>
        have hwriter : (s.mutex (o.part call.op)).writer = false := hi
        rw [h.locked.writing hcall hstage hwrites] at hwriter
        cases hwriter
      | false =>
        rw [ho.reads hwrites hwork, Function.update_eq_self]
        exact h.settled _ hi
    · rw [Function.update_of_ne heq]
      exact h.settled i hi

/-- An operation takes effect when it lets go of its lock. -/
theorem Follows.releases (ho : o.Correct spec Running) (h : o.Follows spec Running init s order a)
    {l : L} {r : R} (hcall : s.calls[k]? = some call) (hstage : call.stage = .inside l)
    (hresult : o.result call.op l (s.data (o.part call.op)) = some r) :
    o.Follows spec Running init { s.goes k call (.left r) with
        mutex := Function.update s.mutex (o.part call.op)
          ((s.mutex (o.part call.op)).release (o.writes call.op)) }
      (order ++ [⟨k, call.op, r⟩])
      (Function.update a (o.part call.op) (s.data (o.part call.op))) := by
  obtain ⟨hinvoked, hrunning⟩ := h.tracked k call hcall
  rw [hstage] at hrunning
  obtain ⟨hnew, hrunning⟩ := hrunning
  have hspec := ho.result hrunning hresult
  constructor
  · have hlegal := h.legal.concat k call.op
    simp only [onParts, hspec] at hlegal
    exact hlegal
  · exact h.explains.point hinvoked hnew r
  · exact h.locked.released hcall hstage r _ _
  · intro j op hmem
    show j < (s.calls.set _ _).length
    rw [List.length_set]
    exact h.known j op hmem
  · apply tracked_set hcall rfl
    · exact ⟨hinvoked, List.mem_append_right _ List.mem_cons_self⟩
    · intro j other hne hother
      apply (h.tracked j other hother).mono
      · intro e he
        exact he
      · intro e he
        exact List.mem_append_left _ he
      · intro hj
        rw [calls_concat, List.mem_append, List.mem_singleton]
        intro hmem
        cases hmem with
        | inl hmem => exact hj hmem
        | inr heq => exact hne heq.symm
      · intro l' hinside
        refine ⟨?_, rfl⟩
        cases hwrites : o.writes call.op with
        | true =>
          rw [Function.update_of_ne (h.locked.alone hcall hstage hwrites hother hne hinside)]
        | false =>
          -- a reader leaves everything as it was
          rw [h.settled _ (h.locked.reading hcall hstage hwrites), Function.update_eq_self]
  · intro i hi
    by_cases heq : i = o.part call.op
    · subst heq
      rw [Function.update_self]
      rfl
    · dsimp only at hi
      rw [Function.update_of_ne heq] at hi
      rw [Function.update_of_ne heq]
      exact h.settled i hi

theorem Follows.responds (h : o.Follows spec Running init s order a) {r : R}
    (hcall : s.calls[k]? = some call) (hstage : call.stage = .left r) :
    o.Follows spec Running init
      { s.goes k call .returned with history := s.history ++ [.returned k r] } order a where
  legal := h.legal
  explains := by
    have hleft := (h.tracked k call hcall).2
    rw [hstage] at hleft
    exact h.explains.respond hleft
  locked := by
    apply h.locked.stay hcall
    intro writes
    unfold holds
    rw [hstage]
  known j op hmem := by
    show j < (s.calls.set _ _).length
    rw [List.length_set]
    cases List.mem_append.mp hmem with
    | inl hmem => exact h.known j op hmem
    | inr hmem => cases List.mem_singleton.mp hmem
  tracked := by
    apply tracked_set hcall rfl
    · exact ⟨List.mem_append_left _ (h.tracked k call hcall).1, trivial⟩
    · intro j other _ hother
      exact (h.tracked j other hother).mono (fun _ he ↦ List.mem_append_left _ he)
        (fun _ he ↦ he) id fun _ _ ↦ ⟨rfl, rfl⟩
  settled := h.settled

end

/-- An object whose operations are correct on their own is linearizable, and a part that nobody
writes to holds what the operations that have taken effect have left there. -/
theorem Correct.linearizable (ho : o.Correct spec Running)
    (hrun : Reachable o.step (start init) s) :
    ∃ order a, Legal (o.onParts spec) init order a ∧ Explains order s.history ∧
      ∀ i, (s.mutex i).writer = false → s.data i = a i := by
  have h : ∃ order a, o.Follows spec Running init s order a := by
    apply hrun.invariant (fun s ↦ ∃ order a, o.Follows spec Running init s order a)
    · exact ⟨[], init, follows_start⟩
    · intro s act s' _ h _ hstep
      obtain ⟨order, a, h⟩ := h
      cases step_cases hstep with
      | invokes op => exact ⟨order, a, h.invokes op⟩
      | acquires hcall hstage hlock => exact ⟨order, a, h.acquires ho hcall hstage hlock⟩
      | works hcall hstage hwork => exact ⟨order, a, h.works ho hcall hstage hwork⟩
      | releases hcall hstage hresult => exact ⟨_, _, h.releases ho hcall hstage hresult⟩
      | responds hcall hstage => exact ⟨order, a, h.responds hcall hstage⟩
  obtain ⟨order, a, h⟩ := h
  exact ⟨order, a, h.legal, h.explains, h.settled⟩

end Object

end LockedObject
