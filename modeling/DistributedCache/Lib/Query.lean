import Mathlib.Data.List.TakeWhile
import Mathlib.Data.UInt

/-!
# A parameter in the query of a URL

What becomes of a text that a client appends to a URL as the value of a query parameter, without
escaping it: the client parses the URL, sends the request line, and the server parses the query.
This is what `net/url` and `net/http` document, for the bytes of the text.  The text arrives as it
is exactly when it is made of plain bytes.
-/

namespace UrlQuery

abbrev Bytes := List UInt8

/-! ## The bytes that mean something -/

def space : UInt8 := 32
def numberSign : UInt8 := 35
def percent : UInt8 := 37
def ampersand : UInt8 := 38
def plus : UInt8 := 43
def semicolon : UInt8 := 59
def equals : UInt8 := 61

def isControl (b : UInt8) : Bool := b < 32 || b = 127

/-- Neither a control character, nor a byte with a meaning in a query or a request line. -/
def Plain (b : UInt8) : Prop :=
  isControl b = false ∧ b ≠ space ∧ b ≠ numberSign ∧ b ≠ percent ∧ b ≠ ampersand ∧ b ≠ plus ∧
    b ≠ semicolon
deriving Decidable

/-! ## Parsing -/

/-- What stands before the first separator, and what stands after it. -/
def cut (sep : UInt8) (s : Bytes) : Bytes × Bytes :=
  (s.takeWhile (· ≠ sep), (s.dropWhile (· ≠ sep)).tail)

def hexValue (b : UInt8) : Option UInt8 :=
  if 48 ≤ b ∧ b ≤ 57 then some (b - 48)
  else if 97 ≤ b ∧ b ≤ 102 then some (b - 87)
  else if 65 ≤ b ∧ b ≤ 70 then some (b - 55)
  else none

/-- `QueryUnescape`; `none` is an invalid escape. -/
def unescape : Bytes → Option Bytes
  | [] => some []
  | b :: rest =>
    if b = percent then
      match rest with
      | hi :: lo :: rest =>
        (hexValue hi).bind fun h ↦ (hexValue lo).bind fun l ↦
          (unescape rest).map fun s ↦ (h * 16 + l) :: s
      | _ => none
    else (unescape rest).map fun s ↦ (if b = plus then space else b) :: s

/-- The value of one `name=value`, if it is well formed and has this name. -/
def pairValue (name piece : Bytes) : Option Bytes :=
  if semicolon ∈ piece ∨ piece = [] then none
  else if unescape (cut equals piece).1 = some name then unescape (cut equals piece).2
  else none

/-- `Query().Get`: the first value of the parameter, or nothing. -/
def getValue (name query : Bytes) : Bytes :=
  ((query.splitOnP (· = ampersand)).findSome? (pairValue name)).getD []

/-- What the server makes of a text that the client has put into the query. -/
inductive Delivery where
  /-- The client cannot parse the URL. -/
  | unparsable
  /-- The server cannot parse the request line. -/
  | malformed
  | value (v : Bytes)
  deriving DecidableEq

/-- `?name=` with the text behind it.  A fragment is parsed, and not sent. -/
def deliver (name text : Bytes) : Delivery :=
  let sent := (cut numberSign text).1
  if sent.any isControl ∨ unescape (cut numberSign text).2 = none then .unparsable
  else if space ∈ sent then .malformed
  else .value (getValue name (name ++ equals :: sent))

/-! ## Cutting -/

section Cut

variable {sep : UInt8} {s t : Bytes}

theorem decide_ne_of_notMem (h : sep ∉ s) : ∀ b ∈ s, decide (b ≠ sep) = true := by
  intro b hb
  apply decide_eq_true
  rintro rfl
  exact h hb

theorem cut_of_notMem (h : sep ∉ s) : cut sep s = (s, []) := by
  have hall := decide_ne_of_notMem h
  unfold cut
  rw [List.takeWhile_eq_self_iff.mpr hall, List.dropWhile_eq_nil_iff.mpr hall, List.tail_nil]

theorem cut_append (h : sep ∉ s) : cut sep (s ++ sep :: t) = (s, t) := by
  have hall := decide_ne_of_notMem h
  unfold cut
  rw [List.takeWhile_append_of_pos hall, List.dropWhile_append_of_pos hall,
    List.takeWhile_cons_of_neg (by simp), List.dropWhile_cons_of_neg (by simp), List.append_nil,
    List.tail_cons]

theorem length_cut_snd_le (sep : UInt8) (s : Bytes) : (cut sep s).2.length ≤ s.length :=
  ((List.tail_sublist _).trans (List.dropWhile_sublist _)).length_le

/-- Nothing is cut off only when the separator is not there. -/
theorem notMem_of_cut_fst_eq (h : (cut sep s).1 = s) : sep ∉ s := by
  intro hmem
  have hne := List.takeWhile_eq_self_iff.mp h sep hmem
  exact absurd rfl (of_decide_eq_true hne)

end Cut

/-! ## Escapes -/

section Unescape

variable {s v : Bytes}

theorem unescape_plain (h : ∀ b ∈ s, Plain b) : unescape s = some s := by
  induction s with
  | nil => rfl
  | cons b s ih =>
    obtain ⟨-, -, -, hpercent, -, hplus, -⟩ := h b List.mem_cons_self
    unfold unescape
    rw [if_neg hpercent, if_neg hplus, ih fun b' hb' ↦ h b' (List.mem_cons_of_mem _ hb')]
    rfl

/-- Nothing gets longer, and an escape gets shorter. -/
theorem length_unescape_le (h : unescape s = some v) :
    v.length ≤ s.length ∧ (percent ∈ s → v.length < s.length) := by
  fun_induction unescape s generalizing v with
  | case1 =>
    cases h
    exact ⟨Nat.le_refl _, fun hmem ↦ absurd hmem List.not_mem_nil⟩
  | case2 hi lo rest ih =>
    obtain ⟨x, -, h⟩ := Option.bind_eq_some_iff.mp h
    obtain ⟨y, -, h⟩ := Option.bind_eq_some_iff.mp h
    obtain ⟨t, ht, rfl⟩ := Option.map_eq_some_iff.mp h
    have hshort := (ih ht).1
    simp only [List.length_cons]
    exact ⟨by omega, fun _ ↦ by omega⟩
  | case3 => cases h
  | case4 b rest hb ih =>
    obtain ⟨t, ht, rfl⟩ := Option.map_eq_some_iff.mp h
    obtain ⟨hle, hlt⟩ := ih ht
    refine ⟨Nat.succ_le_succ hle, ?_⟩
    intro hmem
    have hrest : percent ∈ rest := List.mem_of_ne_of_mem (Ne.symm hb) hmem
    exact Nat.succ_lt_succ (hlt hrest)

/-- A text that is its own meaning has neither an escape nor a plus. -/
theorem notMem_of_unescape_eq_self (h : unescape s = some s) : percent ∉ s ∧ plus ∉ s := by
  have hpercent : percent ∉ s := fun hmem ↦ Nat.lt_irrefl _ ((length_unescape_le h).2 hmem)
  refine ⟨hpercent, ?_⟩
  induction s with
  | nil => exact List.not_mem_nil
  | cons b s ih =>
    rw [List.mem_cons, not_or] at hpercent
    unfold unescape at h
    rw [if_neg (Ne.symm hpercent.1)] at h
    obtain ⟨t, ht, hsame⟩ := Option.map_eq_some_iff.mp h
    rw [List.cons.injEq] at hsame
    obtain ⟨hhead, rfl⟩ := hsame
    have hb : b ≠ plus := by
      rintro rfl
      rw [if_pos rfl] at hhead
      exact absurd hhead (by decide)
    rw [List.mem_cons, not_or]
    exact ⟨Ne.symm hb, ih ht hpercent.2⟩

end Unescape

/-! ## Values -/

section Value

variable {name piece query text v : Bytes}

theorem length_pairValue_le (h : pairValue name piece = some v) : v.length ≤ piece.length := by
  unfold pairValue at h
  split at h
  · cases h
  · split at h
    · exact (length_unescape_le h).1.trans (length_cut_snd_le _ _)
    · cases h

theorem length_le_of_mem_splitOnP (h : piece ∈ query.splitOnP (· = ampersand)) :
    piece.length ≤ query.length := by
  induction query generalizing piece with
  | nil =>
    rw [List.splitOnP_nil, List.mem_singleton] at h
    rw [h]
  | cons b query ih =>
    rw [List.splitOnP_cons_eq_if_modifyHead] at h
    split at h
    · rcases List.mem_cons.mp h with rfl | h
      · exact Nat.zero_le _
      · exact Nat.le_succ_of_le (ih h)
    · cases hpieces : query.splitOnP (· = ampersand) with
      | nil =>
        rw [hpieces] at h
        cases h
      | cons first pieces =>
        rw [hpieces] at h ih
        rcases List.mem_cons.mp h with rfl | h
        · exact Nat.succ_le_succ (ih List.mem_cons_self)
        · exact Nat.le_succ_of_le (ih (List.mem_cons_of_mem _ h))

theorem length_findSome_le {pieces : List Bytes} {bound : Nat}
    (h : ∀ piece ∈ pieces, piece.length ≤ bound) :
    ((pieces.findSome? (pairValue name)).getD []).length ≤ bound := by
  cases hfound : pieces.findSome? (pairValue name) with
  | none => exact Nat.zero_le _
  | some v =>
    obtain ⟨piece, hmem, hvalue⟩ := List.exists_of_findSome?_eq_some hfound
    exact (length_pairValue_le hvalue).trans (h piece hmem)

/-- The value of `name=text`. -/
theorem pairValue_append (hname : ∀ b ∈ name, Plain b ∧ b ≠ equals) :
    pairValue name (name ++ equals :: text) =
      if semicolon ∈ text then none else unescape text := by
  have hequals : equals ∉ name := fun hmem ↦ (hname equals hmem).2 rfl
  have hsemicolon : semicolon ∈ name ++ equals :: text ↔ semicolon ∈ text := by
    rw [List.mem_append, List.mem_cons]
    constructor
    · rintro (hmem | heq | hmem)
      · exact absurd rfl (hname semicolon hmem).1.2.2.2.2.2.2
      · exact absurd heq (by decide)
      · exact hmem
    · exact fun hmem ↦ Or.inr (Or.inr hmem)
  have hnonempty : name ++ equals :: text ≠ [] := by simp
  unfold pairValue
  rw [cut_append hequals, unescape_plain fun b hb ↦ (hname b hb).1]
  simp only [hsemicolon, hnonempty, or_false, if_true]

/-- A text without an ampersand is one piece. -/
theorem splitOnP_of_notMem (hname : ∀ b ∈ name, Plain b ∧ b ≠ equals) (h : ampersand ∉ text) :
    (name ++ equals :: text).splitOnP (· = ampersand) = [name ++ equals :: text] := by
  apply List.splitOnP_eq_singleton
  intro b hb
  apply decide_eq_false
  rintro rfl
  rcases List.mem_append.mp hb with hmem | hmem
  · exact (hname ampersand hmem).1.2.2.2.2.1 rfl
  · rcases List.mem_cons.mp hmem with heq | hmem
    · exact absurd heq (by decide)
    · exact h hmem

theorem getValue_of_notMem (hname : ∀ b ∈ name, Plain b ∧ b ≠ equals) (h : ampersand ∉ text) :
    getValue name (name ++ equals :: text) =
      if semicolon ∈ text then [] else (unescape text).getD [] := by
  unfold getValue
  rw [splitOnP_of_notMem hname h, List.findSome?_singleton, pairValue_append hname]
  split <;> rfl

/-- A text with an ampersand loses something, whichever piece the value is taken from. -/
theorem length_getValue_lt (hname : ∀ b ∈ name, Plain b ∧ b ≠ equals) (h : ampersand ∈ text) :
    (getValue name (name ++ equals :: text)).length < text.length := by
  obtain ⟨before, after, rfl, hbefore⟩ := List.eq_append_cons_of_mem h
  have hpieces : (name ++ equals :: (before ++ ampersand :: after)).splitOnP (· = ampersand) =
      (name ++ equals :: before) :: after.splitOnP (· = ampersand) := by
    rw [← List.cons_append, ← List.append_assoc, List.splitOnP_append_cons _ _ (by simp),
      splitOnP_of_notMem hname hbefore, List.singleton_append]
  have hlength : (before ++ ampersand :: after).length = before.length + (after.length + 1) := by
    rw [List.length_append, List.length_cons]
  unfold getValue
  rw [hpieces, List.findSome?_cons, hlength]
  cases hfirst : pairValue name (name ++ equals :: before) with
  | none =>
    have hrest : ((after.splitOnP (· = ampersand)).findSome? (pairValue name) |>.getD []).length ≤
        after.length := length_findSome_le fun piece ↦ length_le_of_mem_splitOnP
    show ((after.splitOnP (· = ampersand)).findSome? (pairValue name) |>.getD []).length < _
    omega
  | some v =>
    rw [pairValue_append hname] at hfirst
    have hv : v.length ≤ before.length :=
      (length_unescape_le (Option.ite_none_left_eq_some.mp hfirst).2).1
    show v.length < _
    omega

theorem length_getValue_le (hname : ∀ b ∈ name, Plain b ∧ b ≠ equals) :
    (getValue name (name ++ equals :: text)).length ≤ text.length := by
  by_cases h : ampersand ∈ text
  · exact Nat.le_of_lt (length_getValue_lt hname h)
  · rw [getValue_of_notMem hname h]
    split
    · exact Nat.zero_le _
    · cases hvalue : unescape text with
      | none => exact Nat.zero_le _
      | some v => exact (length_unescape_le hvalue).1

/-- The value is the text itself only when there is nothing to split, drop or decode. -/
theorem getValue_eq_self (hname : ∀ b ∈ name, Plain b ∧ b ≠ equals)
    (h : getValue name (name ++ equals :: text) = text) :
    ampersand ∉ text ∧ semicolon ∉ text ∧ percent ∉ text ∧ plus ∉ text := by
  have hampersand : ampersand ∉ text := by
    intro hmem
    have hlt := length_getValue_lt hname hmem
    rw [h] at hlt
    exact Nat.lt_irrefl _ hlt
  rw [getValue_of_notMem hname hampersand] at h
  have hsemicolon : semicolon ∉ text := by
    intro hmem
    rw [if_pos hmem] at h
    rw [← h] at hmem
    cases hmem
  rw [if_neg hsemicolon] at h
  refine ⟨hampersand, hsemicolon, ?_⟩
  cases hvalue : unescape text with
  | none =>
    -- an invalid escape gives the empty text, which has none
    rw [hvalue, Option.getD_none] at h
    rw [← h] at hvalue
    cases hvalue
  | some v =>
    rw [hvalue, Option.getD_some] at h
    rw [h] at hvalue
    exact notMem_of_unescape_eq_self hvalue

end Value

/-! ## Delivery -/

/-- A text arrives as it is exactly when all its bytes are plain. -/
theorem deliver_eq_value_iff {name text : Bytes} (hname : ∀ b ∈ name, Plain b ∧ b ≠ equals) :
    deliver name text = .value text ↔ ∀ b ∈ text, Plain b := by
  constructor
  · intro h
    unfold deliver at h
    simp only at h
    split at h
    · cases h
    · rename_i hparsed
      split at h
      · cases h
      · rename_i hspace
        have hvalue := Delivery.value.inj h
        -- the value is no longer than what was sent, so nothing was cut off
        have hsent : (cut numberSign text).1 = text := by
          apply (List.takeWhile_sublist _).eq_of_length_le
          calc text.length
            _ = (getValue name (name ++ equals :: (cut numberSign text).1)).length := by rw [hvalue]
            _ ≤ (cut numberSign text).1.length := length_getValue_le hname
        have hnumber := notMem_of_cut_fst_eq hsent
        rw [hsent] at hparsed hspace hvalue
        obtain ⟨hampersand, hsemicolon, hpercent, hplus⟩ := getValue_eq_self hname hvalue
        intro b hb
        refine ⟨?_, ?_, ?_, ?_, ?_, ?_, ?_⟩
        · by_contra hcontrol
          rw [Bool.not_eq_false] at hcontrol
          exact hparsed (Or.inl (List.any_eq_true.mpr ⟨b, hb, hcontrol⟩))
        all_goals rintro rfl; contradiction
  · intro h
    have hnumber : numberSign ∉ text := fun hmem ↦ (h _ hmem).2.2.1 rfl
    have hspace : space ∉ text := fun hmem ↦ (h _ hmem).2.1 rfl
    have hampersand : ampersand ∉ text := fun hmem ↦ (h _ hmem).2.2.2.2.1 rfl
    have hsemicolon : semicolon ∉ text := fun hmem ↦ (h _ hmem).2.2.2.2.2.2 rfl
    have hcontrol : ¬ text.any isControl = true := by
      intro hany
      obtain ⟨b, hb, hcontrol⟩ := List.any_eq_true.mp hany
      rw [(h b hb).1] at hcontrol
      cases hcontrol
    have hfragment : unescape [] ≠ none := by simp [unescape]
    unfold deliver
    rw [cut_of_notMem hnumber]
    simp only [hcontrol, Bool.false_eq_true, hfragment, hspace, or_false, if_false,
      getValue_of_notMem hname hampersand,
      hsemicolon, unescape_plain h, Option.getD_some]

end UrlQuery
