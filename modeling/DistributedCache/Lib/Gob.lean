import Mathlib.Data.List.Basic

/-!
# Streams of `encoding/gob`

An encoder defines each type before it sends the first value of it, and a new encoder starts anew.
A decoder takes every definition once.  It tells the end of a stream between two values (`eof`) from
a stream that ends anywhere else.

Only what crosses the stream is modelled: definitions and values, each a message of some number of
bytes.  A field that holds the zero value of its type is not sent, nor is a pointer to one.
-/

namespace Gob

variable {τ α : Type*}

inductive Item (τ α : Type*) where
  | typeDef (id : τ)
  | value (v : α)
  deriving DecidableEq

namespace Item

def isValue : Item τ α → Bool
  | .typeDef _ => false
  | .value _ => true

def typeDef? : Item τ α → Option τ
  | .typeDef id => some id
  | .value _ => none

def value? : Item τ α → Option α
  | .typeDef _ => none
  | .value v => some v

end Item

/-- The types that are defined in a stream. -/
def typeDefs (ms : List (Item τ α)) : List τ := ms.filterMap Item.typeDef?

/-- The values in a stream. -/
def values (ms : List (Item τ α)) : List α := ms.filterMap Item.value?

section

variable {m : Item τ α} {ms ms' : List (Item τ α)} {id : τ} {v : α}

@[simp] theorem typeDefs_cons_typeDef : typeDefs (.typeDef id :: ms) = id :: typeDefs ms := rfl

@[simp] theorem typeDefs_cons_value : typeDefs (.value v :: ms) = typeDefs ms := rfl

@[simp] theorem values_cons_typeDef : values (.typeDef id :: ms) = values ms := rfl

@[simp] theorem values_cons_value : values (.value v :: ms) = v :: values ms := rfl

@[simp] theorem values_append : values (ms ++ ms') = values ms ++ values ms' :=
  List.filterMap_append

/-- Definitions and then values. -/
theorem values_batch (types : List τ) (vs : List α) :
    values (types.map Item.typeDef ++ vs.map Item.value) = vs := by
  unfold values
  rw [List.filterMap_append, List.filterMap_map, List.filterMap_map]
  simp [Function.comp_def, Item.value?]

theorem length_values : (values ms).length = ms.countP Item.isValue := by
  induction ms with
  | nil => rfl
  | cons m ms ih => cases m <;> simp [List.countP_cons, Item.isValue, ih]

/-- A part of a stream holds the first of its values. -/
theorem values_of_isPrefix (h : ms <+: ms') :
    values ms = (values ms').take (ms.countP Item.isValue) := by
  obtain ⟨tail, rfl⟩ := h
  rw [values_append, ← length_values, List.take_left]

theorem count_typeDefs [DecidableEq τ] [DecidableEq α] :
    (typeDefs ms).count id = ms.count (.typeDef id) := by
  induction ms with
  | nil => rfl
  | cons m ms ih => cases m <;> simp [List.count_cons, ih]

end

/-! ## Encoding -/

/-- The types that an encoder has defined so far. -/
structure Encoder (τ : Type*) where
  sent : List τ

def newEncoder : Encoder τ := ⟨[]⟩

/-- `Encode` of a value that needs the definitions of `types`. -/
def Encoder.encode [DecidableEq τ] (enc : Encoder τ) (types : List τ) (v : α) :
    List (Item τ α) × Encoder τ :=
  ((types.filter (· ∉ enc.sent)).map .typeDef ++ [.value v], ⟨enc.sent ++ types⟩)

/-- One encoder for all values. -/
def Encoder.encodeAll [DecidableEq τ] (types : List τ) (enc : Encoder τ) : List α → List (Item τ α)
  | [] => []
  | v :: vs => (enc.encode types v).1 ++ (enc.encode types v).2.encodeAll types vs

theorem Encoder.encodeAll_of_sent [DecidableEq τ] {types : List τ} {enc : Encoder τ} {vs : List α}
    (h : ∀ id ∈ types, id ∈ enc.sent) : enc.encodeAll types vs = vs.map .value := by
  induction vs generalizing enc with
  | nil => rfl
  | cons v vs ih =>
    have hfilter : types.filter (· ∉ enc.sent) = [] := by simpa using h
    have hsent : ∀ id ∈ types, id ∈ (enc.encode types v).2.sent :=
      fun id hid ↦ List.mem_append_left _ (h id hid)
    rw [encodeAll, ih hsent, encode, hfilter]
    rfl

/-- A new encoder defines the types and then sends the values. -/
theorem encodeAll_newEncoder [DecidableEq τ] (types : List τ) {vs : List α} (hne : vs ≠ []) :
    newEncoder.encodeAll types vs = types.map .typeDef ++ vs.map .value := by
  obtain ⟨v, vs, rfl⟩ := List.exists_cons_of_ne_nil hne
  rw [Encoder.encodeAll, Encoder.encodeAll_of_sent]
  · simp [Encoder.encode, newEncoder]
  · exact fun id hid ↦ List.mem_append_right _ hid

/-! ## Streams and their cuts -/

/-- The messages that a stream holds in full, and whether a part of another one follows. -/
structure Stream (τ α : Type*) where
  items : List (Item τ α)
  torn : Bool
  deriving DecidableEq

/-- The first `k` bytes of a stream. -/
def cut (size : Item τ α → Nat) : Nat → List (Item τ α) → Stream τ α
  | _, [] => ⟨[], false⟩
  | k, m :: ms =>
    if size m ≤ k then ⟨m :: (cut size (k - size m) ms).items, (cut size (k - size m) ms).torn⟩
    else ⟨[], 0 < k⟩

theorem cut_isPrefix (size : Item τ α → Nat) (k : Nat) (ms : List (Item τ α)) :
    (cut size k ms).items <+: ms := by
  induction ms generalizing k with
  | nil => exact List.prefix_rfl
  | cons m ms ih =>
    unfold cut
    split
    · exact List.prefix_cons_inj m |>.mpr (ih _)
    · exact List.nil_prefix

/-- The stream ends after a value, or before everything. -/
def Stream.endsAtValue (s : Stream τ α) : Bool := !s.torn && s.items.getLast?.all Item.isValue

theorem endsAtValue_cons {m : Item τ α} {ms : List (Item τ α)} {torn : Bool} :
    Stream.endsAtValue ⟨m :: ms, torn⟩ = true ↔
      (ms = [] → m.isValue = true) ∧ Stream.endsAtValue ⟨ms, torn⟩ = true := by
  cases ms with
  | nil => simp [Stream.endsAtValue, and_comm]
  | cons m' ms => simp [Stream.endsAtValue, List.getLast?_cons_cons]

/-- What the file of a stream holds after another one was appended to it.  Behind a torn message no
message begins any more. -/
def Stream.append (s t : Stream τ α) : Stream τ α :=
  if s.torn then s else ⟨s.items ++ t.items, t.torn⟩

theorem Stream.isPrefix_append (s t : Stream τ α) : s.items <+: (s.append t).items := by
  unfold Stream.append
  split
  · exact List.prefix_rfl
  · exact List.prefix_append _ _

theorem Stream.append_of_not_torn {s t : Stream τ α} (h : (s.append t).torn = false) :
    s.torn = false ∧ (s.append t).items = s.items ++ t.items := by
  unfold Stream.append at h ⊢
  cases hs : s.torn with
  | false => exact ⟨rfl, rfl⟩
  | true =>
    rw [if_pos hs, hs] at h
    cases h

/-! ## Decoding -/

inductive DecodeError where
  | eof
  | unexpectedEOF
  | duplicateType
  deriving DecidableEq, Repr

/-- `Decode`: definitions up to a value.  `started` holds once a definition was read. -/
def decode [DecidableEq τ] (torn : Bool) : List τ → Bool → List (Item τ α) →
    Except DecodeError (α × List τ × List (Item τ α))
  | _, started, [] => .error (if torn || started then .unexpectedEOF else .eof)
  | known, _, .typeDef id :: ms =>
    if id ∈ known then .error .duplicateType else decode torn (id :: known) true ms
  | known, _, .value v :: ms => .ok (v, known, ms)

/-! ## Fields -/

section

variable [DecidableEq α] {zero x : α} {p : Option α}

/-- What is sent of a field; the receiver finds the zero value where nothing was sent. -/
def field (zero x : α) : Option α := if x = zero then none else some x

@[simp] theorem field_getD : (field zero x).getD zero = x := by
  unfold field
  split
  · exact Eq.symm ‹x = zero›
  · rfl

/-- What is sent of a pointer, as if it were the value it points to. -/
def pointer (zero : α) (p : Option α) : Option α := p.bind (field zero)

theorem pointer_eq_self_iff : pointer zero p = p ↔ p ≠ some zero := by
  cases p with
  | none => simp [pointer]
  | some x => by_cases h : x = zero <;> simp [pointer, field, h]

end

end Gob
