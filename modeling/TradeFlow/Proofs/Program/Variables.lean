import TradeFlow.Program.Scope
import Mathlib.Data.List.DropRight
import Mathlib.Data.List.Nodup

/-!
The names of variables.

A variable is named by its stem and, from the second one of the stem on, by its number. As long as no
stem ends in a digit, the digits at the end of a name are the number and what stands before them is
the stem. What is proved:

1. `Variable.name_inj`: variables whose stems do not end in a digit are told apart by their names.
2. `Scope.numbered_allocations`: allocation numbers the variables of each stem upwards, also when
   stems take turns, so no variable is allocated twice.
3. `Scope.nodup_names_allocations`: hence the variables of a fresh scope have distinct names.
4. `Variable.Numbered.eq_allocations`: whatever is numbered in this way is what a fresh scope allocates
   for the stems.
-/

namespace TradeFlow

/-! ## Stems and numbers -/

/-- The last character of a text is a decimal digit. -/
def EndsInDigit (text : String) : Prop := text.toList.getLast?.any Char.isDigit = true

instance (text : String) : Decidable (EndsInDigit text) :=
  inferInstanceAs (Decidable (text.toList.getLast?.any Char.isDigit = true))

theorem natText_inj {m n : Nat} : natText m = natText n ↔ m = n := by
  constructor
  · intro h
    calc m = Nat.ofDigitChars 10 (natText m) 0 := Nat.ofDigitChars_ten_toDigits.symm
      _ = Nat.ofDigitChars 10 (natText n) 0 := by rw [h]
      _ = n := Nat.ofDigitChars_ten_toDigits
  · rintro rfl
    rfl

theorem natText_ne_nil (n : Nat) : natText n ≠ [] := Nat.toDigits_ne_nil

/-- Digits at the end of a text are dropped, and with them those in front of them. -/
theorem rdropWhile_append_digits (text : List Char) {digits : List Char}
    (h : ∀ c ∈ digits, c.isDigit = true) :
    (text ++ digits).rdropWhile Char.isDigit = text.rdropWhile Char.isDigit := by
  have hreverse : ∀ c ∈ digits.reverse, c.isDigit = true :=
    fun c hc => h c (List.mem_reverse.1 hc)
  rw [List.rdropWhile, List.reverse_append, List.dropWhile_append_of_pos hreverse]
  rfl

theorem rdropWhile_of_not_endsInDigit {text : String} (h : ¬ EndsInDigit text) :
    text.toList.rdropWhile Char.isDigit = text.toList := by
  rw [List.rdropWhile_eq_self_iff]
  intro hne hdigit
  apply h
  rw [EndsInDigit, List.getLast?_eq_some_getLast hne]
  exact hdigit

namespace Variable

variable {v w : Variable}

/-- The digits behind the stem: none for the first variable of a stem. -/
def suffix (v : Variable) : List Char := if v.number = 1 then [] else natText v.number

theorem toList_name (v : Variable) : v.name.toList = v.stem.toList ++ v.suffix := by
  unfold name suffix
  split
  · rw [List.append_nil]
  · rw [String.toList_append, String.toList_ofList]

theorem isDigit_suffix (v : Variable) : ∀ c ∈ v.suffix, c.isDigit = true := by
  intro c hc
  unfold suffix at hc
  split at hc
  · cases hc
  · exact Nat.isDigit_of_mem_toDigits (by decide) (by decide) hc

theorem suffix_inj : v.suffix = w.suffix ↔ v.number = w.number := by
  constructor
  · intro h
    unfold suffix at h
    split at h <;> split at h
    · omega
    · exact absurd h.symm (natText_ne_nil _)
    · exact absurd h (natText_ne_nil _)
    · exact natText_inj.1 h
  · intro h
    rw [suffix, suffix, h]

/-- Without the digits at its end, a name is the stem. -/
theorem rdropWhile_name (h : ¬ EndsInDigit v.stem) :
    v.name.toList.rdropWhile Char.isDigit = v.stem.toList := by
  rw [toList_name, rdropWhile_append_digits _ v.isDigit_suffix, rdropWhile_of_not_endsInDigit h]

/-- Stem and number of a variable can be read off its name. -/
theorem name_inj (hv : ¬ EndsInDigit v.stem) (hw : ¬ EndsInDigit w.stem) :
    v.name = w.name ↔ v = w := by
  constructor
  · intro h
    have hstem : v.stem = w.stem := by
      rw [← String.toList_inj, ← rdropWhile_name hv, ← rdropWhile_name hw, h]
    have hnumber : v.number = w.number := by
      have hlist := congrArg String.toList h
      rw [toList_name, toList_name, hstem] at hlist
      exact suffix_inj.1 (List.append_cancel_left hlist)
    cases v
    cases w
    simp_all
  · rintro rfl
    rfl

/-! ## Numbering -/

/-- Each variable of a list, the latest first, has the number that its stem has reached with it. -/
def Numbered : List Variable → Prop
  | [] => True
  | v :: earlier => v.number = earlier.countP (·.stem == v.stem) + 1 ∧ Numbered earlier

variable {vs : List Variable}

theorem Numbered.number_le (h : Numbered vs) (hv : v ∈ vs) :
    v.number ≤ vs.countP (·.stem == v.stem) := by
  induction vs with
  | nil => cases hv
  | cons w earlier ih =>
    rw [List.countP_cons]
    rcases List.mem_cons.1 hv with rfl | hv
    · rw [h.1, if_pos (beq_self_eq_true _)]
    · exact Nat.le_add_right_of_le (ih h.2 hv)

/-- A new variable has a number that no earlier one of its stem has. -/
theorem Numbered.nodup (h : Numbered vs) : vs.Nodup := by
  induction vs with
  | nil => exact List.nodup_nil
  | cons v earlier ih =>
    rw [List.nodup_cons]
    refine ⟨fun hmem => ?_, ih h.2⟩
    have hle := h.2.number_le hmem
    have hnumber := h.1
    omega

theorem Numbered.nodup_names (h : Numbered vs) (hstems : ∀ v ∈ vs, ¬ EndsInDigit v.stem) :
    (vs.map name).Nodup := by
  apply List.Nodup.map_on _ h.nodup
  intro v hv w hw heq
  exact (name_inj (hstems v hv) (hstems w hw)).1 heq

end Variable

/-! ## Allocation -/

namespace Scope

open Variable (Numbered)

variable {ε : Type} {s : Scope ε} {stem : String} {stems : List String}

@[simp] theorem allocated_empty : (empty : Scope ε).allocated = [] := rfl

/-- The variables that a scope gives for some stems, one after the other. -/
def allocations (s : Scope ε) : List String → List Variable
  | [] => []
  | stem :: stems => (s.allocate stem).1 :: (s.allocate stem).2.allocations stems

theorem map_stem_allocations (s : Scope ε) (stems : List String) :
    (s.allocations stems).map (·.stem) = stems := by
  induction stems generalizing s with
  | nil => rfl
  | cons stem stems ih =>
    rw [allocations, List.map_cons, ih]
    rfl

/-- One allocation goes on with the numbering. -/
theorem numbered_allocate (h : Numbered s.allocated) (stem : String) :
    Numbered (s.allocate stem).2.allocated :=
  ⟨rfl, h⟩

theorem numbered_allocations (h : Numbered s.allocated) (stems : List String) :
    Numbered ((s.allocations stems).reverse ++ s.allocated) := by
  induction stems generalizing s with
  | nil => exact h
  | cons stem stems ih =>
    rw [allocations, List.reverse_cons, List.append_assoc]
    exact ih (numbered_allocate h stem)

/-- The names that a fresh scope gives for stems without digits at their ends are distinct. -/
theorem nodup_names_allocations (h : ∀ stem ∈ stems, ¬ EndsInDigit stem) :
    (((empty : Scope ε).allocations stems).map Variable.name).Nodup := by
  have hnumbered := numbered_allocations (s := (empty : Scope ε)) trivial stems
  rw [allocated_empty, List.append_nil] at hnumbered
  rw [← List.nodup_reverse, ← List.map_reverse]
  apply hnumbered.nodup_names
  intro v hv
  apply h
  rw [← map_stem_allocations (empty : Scope ε) stems]
  exact List.mem_map_of_mem (List.mem_reverse.1 hv)

/-- The next allocation only looks at how often its stem was allocated. -/
theorem allocations_concat (s : Scope ε) (stems : List String) (stem : String) :
    s.allocations (stems ++ [stem]) = s.allocations stems ++
      [⟨stem, ((s.allocations stems).reverse ++ s.allocated).countP (·.stem == stem) + 1⟩] := by
  induction stems generalizing s with
  | nil => rfl
  | cons first stems ih =>
    rw [List.cons_append, allocations, ih, allocations, List.reverse_cons, List.append_assoc]
    rfl

end Scope

/-- What is numbered is what a fresh scope allocates for the stems. -/
theorem Variable.Numbered.eq_allocations {ε : Type} {vs : List Variable} (h : Numbered vs) :
    vs.reverse = (Scope.empty : Scope ε).allocations (vs.reverse.map (·.stem)) := by
  induction vs with
  | nil => rfl
  | cons v earlier ih =>
    have hearlier := ih h.2
    rw [List.reverse_cons, List.map_append, List.map_singleton, Scope.allocations_concat, ← hearlier,
      List.reverse_reverse, Scope.allocated_empty, List.append_nil, ← h.1]

end TradeFlow
