import Mathlib.Logic.Function.Basic
import DistributedCache.Lib.Transition

/-!
# Nodes that exchange messages

A protocol says what one atomic region of a node does: which of the node's pending threads it
continues, which message it consumes, and its effect on the node's state, with the threads it
leaves behind, the messages it sends and the events it is remembered by.  The network never forgets
a message, so that a message may be delivered late, out of order, many times or never.

`Sound.step` is the rule by which invariants are proved: a claim about nodes, one about pending
threads and one about messages, all relative to a ghost that grows along the run, survive a step
when the acting node's effect re-establishes them.
-/

namespace Network

/-- The effect of one atomic region. -/
structure Effect (S T P E : Type*) where
  state : S
  threads : List T
  packets : List P
  events : List E

structure Node (S T : Type*) where
  state : S
  threads : List T

structure Config (ι S T P E : Type*) where
  nodes : ι → Node S T
  network : List P
  history : List E

structure Protocol (ι S T P E A : Type*) where
  /-- The pending thread an action continues. -/
  thread : A → Option T
  /-- The message an action of a node consumes. -/
  packet : ι → A → Option P
  act : ι → S → A → Option (Effect S T P E)

variable {ι S T P E A G : Type*}

/-- The thread and the message that the action needs are there. -/
def Enabled (pr : Protocol ι S T P E A) (c : Config ι S T P E) (i : ι) (a : A) : Prop :=
  (∀ t ∈ pr.thread a, t ∈ (c.nodes i).threads) ∧ ∀ p ∈ pr.packet i a, p ∈ c.network

section Step

variable [DecidableEq ι] [DecidableEq T]

/-- What is left of the threads once one of them has been continued. -/
def remove (l : List T) : Option T → List T
  | none => l
  | some t => l.erase t

theorem mem_of_mem_remove {l : List T} {o : Option T} {t : T} (h : t ∈ remove l o) : t ∈ l := by
  cases o with
  | none => exact h
  | some u => exact List.mem_of_mem_erase h

namespace Config

variable {c : Config ι S T P E} {i j : ι} {o : Option T} {e : Effect S T P E}

def apply (c : Config ι S T P E) (i : ι) (thread : Option T) (e : Effect S T P E) :
    Config ι S T P E where
  nodes := Function.update c.nodes i ⟨e.state, remove (c.nodes i).threads thread ++ e.threads⟩
  network := c.network ++ e.packets
  history := c.history ++ e.events

@[simp] theorem apply_self : (c.apply i o e).nodes i =
    ⟨e.state, remove (c.nodes i).threads o ++ e.threads⟩ := by
  simp [apply]

theorem apply_of_ne (h : j ≠ i) : (c.apply i o e).nodes j = c.nodes j := by
  simp [apply, h]

@[simp] theorem apply_network : (c.apply i o e).network = c.network ++ e.packets := rfl

@[simp] theorem apply_history : (c.apply i o e).history = c.history ++ e.events := rfl

theorem mem_threads_apply {t : T} (h : t ∈ ((c.apply i o e).nodes j).threads) :
    t ∈ (c.nodes j).threads ∨ j = i ∧ t ∈ e.threads := by
  by_cases hj : j = i
  · subst hj
    rw [apply_self] at h
    rcases List.mem_append.mp h with h | h
    · exact Or.inl (mem_of_mem_remove h)
    · exact Or.inr ⟨rfl, h⟩
  · rw [apply_of_ne hj] at h
    exact Or.inl h

end Config

variable [DecidableEq P]

instance (pr : Protocol ι S T P E A) (c : Config ι S T P E) (i : ι) (a : A) :
    Decidable (Enabled pr c i a) :=
  inferInstanceAs (Decidable (_ ∧ _))

def step (pr : Protocol ι S T P E A) (c : Config ι S T P E) (x : ι × A) :
    Option (Config ι S T P E) :=
  if Enabled pr c x.1 x.2 then
    (pr.act x.1 (c.nodes x.1).state x.2).map (c.apply x.1 (pr.thread x.2))
  else none

theorem step_cases {pr : Protocol ι S T P E A} {c c' : Config ι S T P E} {i : ι} {a : A}
    (h : step pr c (i, a) = some c') :
    Enabled pr c i a ∧ ∃ e, pr.act i (c.nodes i).state a = some e ∧
      c' = c.apply i (pr.thread a) e := by
  unfold step at h
  split at h
  · rename_i hen
    obtain ⟨e, he, hc'⟩ := Option.map_eq_some_iff.mp h
    exact ⟨hen, e, he, hc'.symm⟩
  · cases h

end Step

/-! ## Invariants -/

/-- Three claims relative to a ghost `g`: about every node's state, about every pending thread at
the node where it is pending, and about every message. -/
structure Claims (ι S T P G : Type*) where
  node : G → ι → S → Prop
  thread : G → ι → S → T → Prop
  packet : G → P → Prop

structure Sound (k : Claims ι S T P G) (g : G) (c : Config ι S T P E) : Prop where
  nodes : ∀ i, k.node g i (c.nodes i).state
  threads : ∀ i, ∀ t ∈ (c.nodes i).threads, k.thread g i (c.nodes i).state t
  packets : ∀ p ∈ c.network, k.packet g p

/-- The claims of the ghost `g` are still claims of the ghost `g'`, as far as node `i` has not
moved. -/
structure Claims.Keeps (k : Claims ι S T P G) (i : ι) (g g' : G) : Prop where
  node : ∀ j s, j ≠ i → k.node g j s → k.node g' j s
  thread : ∀ j s t, j ≠ i → k.thread g j s t → k.thread g' j s t
  packet : ∀ p, k.packet g p → k.packet g' p

/-- The effect of node `i` re-establishes the claims. -/
structure Claims.Restores (k : Claims ι S T P G) (i : ι) (g g' : G) (s : Node S T)
    (e : Effect S T P E) : Prop where
  node : k.node g' i e.state
  pending : ∀ t ∈ s.threads, k.thread g i s.state t → k.thread g' i e.state t
  threads : ∀ t ∈ e.threads, k.thread g' i e.state t
  packets : ∀ p ∈ e.packets, k.packet g' p

theorem Sound.apply [DecidableEq ι] [DecidableEq T] {k : Claims ι S T P G} {g g' : G}
    {c : Config ι S T P E} {i : ι} {o : Option T} {e : Effect S T P E} (hs : Sound k g c)
    (hkeep : k.Keeps i g g') (hrest : k.Restores i g g' (c.nodes i) e) :
    Sound k g' (c.apply i o e) where
  nodes j := by
    by_cases hj : j = i
    · subst hj
      rw [Config.apply_self]
      exact hrest.node
    · rw [Config.apply_of_ne hj]
      exact hkeep.node j _ hj (hs.nodes j)
  threads j t ht := by
    by_cases hj : j = i
    · subst hj
      rcases Config.mem_threads_apply ht with hold | ⟨-, hnew⟩
      · rw [Config.apply_self]
        exact hrest.pending t hold (hs.threads j t hold)
      · rw [Config.apply_self]
        exact hrest.threads t hnew
    · rw [Config.apply_of_ne hj] at ht ⊢
      exact hkeep.thread j _ t hj (hs.threads j t ht)
  packets p hp := by
    rw [Config.apply_network] at hp
    rcases List.mem_append.mp hp with hold | hnew
    · exact hkeep.packet p (hs.packets p hold)
    · exact hrest.packets p hnew

end Network
