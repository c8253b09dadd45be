import TradeFlow.Overlay
import Mathlib.Data.List.Nodup

/-!
Settings and their entries.

Entries are read on top of settings. What is proved:

1. `Entries.ofList_perm` and `Entries.get?_ofList`: entries with distinct keys hold the pairs that they
   were made of; otherwise the last pair of a key counts (`Entries.get?_ofList_append`).
2. `Settings.overlay_errors`: reading reports the one choice whose value is not in its list, if there
   is such a value, and nothing else.
3. `Settings.fits_overlay`: whatever is read, the choice stays in its list.
-/

namespace TradeFlow

/-- A step that succeeds on every item succeeds on the list. -/
theorem mapM_eq_some_map {α β : Type} {f : α → Option β} {g : α → β} {l : List α}
    (h : ∀ a ∈ l, f a = some (g a)) : l.mapM f = some (l.map g) := by
  induction l with
  | nil => rfl
  | cons a l ih =>
    obtain ⟨ha, hl⟩ := List.forall_mem_cons.1 h
    simp [List.mapM_cons, ha, ih hl]

/-! ## Entries -/

namespace Entries

variable {entries : Entries} {key : String} {value : Value}

theorem get?_cons (key : String) (value : Value) (entries : Entries) (k : String) :
    get? ((key, value) :: entries) k = if k = key then some value else entries.get? k := by
  unfold get?
  rw [List.lookup_cons]
  by_cases h : k = key
  · simp [h]
  · rw [if_neg h, beq_false_of_ne h]

theorem get?_insert (key : String) (value : Value) (entries : Entries) (k : String) :
    (entries.insert key value).get? k = if k = key then some value else entries.get? k := by
  induction entries with
  | nil => exact get?_cons key value [] k
  | cons e rest ih =>
    obtain ⟨k₀, v₀⟩ := e
    rw [insert]
    split
    · rw [get?_cons]
    · split
      · next heq =>
        subst heq
        rw [get?_cons, get?_cons]
        split <;> rfl
      · next hne =>
        rw [get?_cons, get?_cons, ih]
        split
        · next heq =>
          subst heq
          rw [if_neg (Ne.symm hne)]
        · rfl

theorem get?_foldl_insert {pairs : List (String × Value)} (h : key ∉ pairs.map (·.1)) :
    (pairs.foldl (fun entries (key, value) => insert key value entries) entries).get? key =
      entries.get? key := by
  induction pairs generalizing entries with
  | nil => rfl
  | cons p pairs ih =>
    obtain ⟨k, v⟩ := p
    rw [List.map_cons, List.mem_cons, not_or] at h
    rw [List.foldl_cons, ih h.2, get?_insert, if_neg h.1]

/-- The last value of a key is found under it. -/
theorem get?_ofList_append {before after : List (String × Value)} (h : key ∉ after.map (·.1)) :
    (ofList (before ++ (key, value) :: after)).get? key = some value := by
  rw [ofList, List.foldl_append, List.foldl_cons, get?_foldl_insert h, get?_insert, if_pos rfl]

/-- A new key adds its pair. -/
theorem insert_perm (h : key ∉ entries.map (·.1)) :
    (entries.insert key value).Perm ((key, value) :: entries) := by
  induction entries with
  | nil => exact .refl _
  | cons e rest ih =>
    obtain ⟨k₀, v₀⟩ := e
    rw [List.map_cons, List.mem_cons, not_or] at h
    simp only [insert]
    split
    · exact .refl _
    · rw [if_neg h.1]
      exact ((ih h.2).cons _).trans (.swap _ _ _)

theorem foldl_insert_perm {pairs : List (String × Value)}
    (h : ((pairs ++ entries).map (·.1)).Nodup) :
    (pairs.foldl (fun entries (key, value) => insert key value entries) entries).Perm
      (pairs ++ entries) := by
  induction pairs generalizing entries with
  | nil => exact .refl _
  | cons p pairs ih =>
    obtain ⟨k, v⟩ := p
    rw [List.cons_append, List.map_cons, List.nodup_cons] at h
    have hnew : k ∉ entries.map (·.1) := by
      intro hk
      exact h.1 (by simp [List.mem_map.1 hk])
    have hmoved : (pairs ++ entries.insert k v).Perm ((k, v) :: (pairs ++ entries)) :=
      ((insert_perm hnew).append_left pairs).trans List.perm_middle
    have hnodup : ((pairs ++ entries.insert k v).map (·.1)).Nodup := by
      rw [(hmoved.map _).nodup_iff, List.map_cons, List.nodup_cons]
      exact h
    exact (ih hnodup).trans hmoved

/-- Pairs with distinct keys are all kept. -/
theorem ofList_perm {pairs : List (String × Value)} (h : (pairs.map (·.1)).Nodup) :
    (ofList pairs).Perm pairs := by
  have hall : (ofList pairs).Perm (pairs ++ []) := foldl_insert_perm (by simpa using h)
  rwa [List.append_nil] at hall

/-- With distinct keys, the value of a pair is found under its key. -/
theorem get?_eq_some_iff (h : (entries.map (·.1)).Nodup) :
    entries.get? key = some value ↔ (key, value) ∈ entries := by
  induction entries with
  | nil => simp [get?]
  | cons e rest ih =>
    obtain ⟨k₀, v₀⟩ := e
    rw [List.map_cons, List.nodup_cons] at h
    rw [get?_cons, List.mem_cons, Prod.mk.injEq]
    by_cases hk : key = k₀
    · subst hk
      have hnot : (key, value) ∉ rest := fun hmem => h.1 (List.mem_map.2 ⟨_, hmem, rfl⟩)
      simp [hnot, eq_comm]
    · simp [hk, ih h.2]

/-- With distinct keys, entries made of pairs hold the value of each. -/
theorem get?_ofList {pairs : Entries} (h : (pairs.map (·.1)).Nodup) (key : String) :
    (ofList pairs).get? key = pairs.get? key := by
  have hperm := ofList_perm h
  have hnodup : ((ofList pairs).map (·.1)).Nodup := (hperm.map _).nodup_iff.2 h
  ext value
  rw [get?_eq_some_iff hnodup, get?_eq_some_iff h, hperm.mem_iff]

theorem get?_map (entries : Entries) (f : Value → Value) (k : String) :
    get? (entries.map fun e => (e.1, f e.2)) k = (entries.get? k).map f := by
  induction entries with
  | nil => rfl
  | cons e rest ih =>
    rw [List.map_cons, get?_cons, get?_cons, ih]
    split <;> rfl

end Entries

/-! ## Choices -/

/-- The setting of a kind that is chosen from a list, and the list. -/
def Kind.choice? : Kind → Option (String × List String)
  | .fetchShortlist => some ("shortlistType", shortlistTypes)
  | .fetchShortlistPersistence => some ("shortlistType", shortlistTypes)
  | .fetchCandles => some ("interval", candleIntervals)
  | .placeOrder => some ("priceMode", priceModes)
  | .conditional => some ("operator", Operator.all.map Operator.symbol)
  | _ => none

/-- The choice for a kind, if there is a value for it that is not a string of the list. -/
def Entries.refused? (c : Entries) (kind : Kind) : Option ChoiceError :=
  kind.choice?.bind fun (key, allowed) =>
    (c.get? key).bind fun value =>
      match value with
      | .string s => if s ∈ allowed then none else some { key, value, allowed }
      | _ => some { key, value, allowed }

/-- The word is taken from the list unless there is none in the entries. -/
theorem Entries.choice_fst_mem {c : Entries} {key default : String} {allowed : List String}
    (h : default ∈ allowed) : (c.choice key default allowed).1 ∈ allowed := by
  unfold choice
  split
  · exact h
  · split
    · next hs =>
      obtain ⟨-, hmem⟩ := Option.filter_eq_some_iff.1 hs
      simpa using hmem
    · exact h

theorem Entries.choice_snd (c : Entries) (key default : String) (allowed : List String) :
    (c.choice key default allowed).2 = (c.get? key).bind fun value =>
      match value with
      | .string s => if s ∈ allowed then none else some { key, value, allowed }
      | _ => some { key, value, allowed } := by
  unfold choice
  cases c.get? key with
  | none => rfl
  | some value =>
    cases value with
    | string s => by_cases hs : s ∈ allowed <;> simp [Value.asString?, Option.filter, hs]
    | _ => rfl

namespace Settings

theorem kind_default (kind : Kind) : (default kind).kind = kind := by
  cases kind <;> rfl

/-- Entries do not change the kind. -/
theorem kind_overlay (s : Settings) (c : Entries) : (s.overlay c).1.kind = s.kind := by
  cases s <;> rfl

/-- Reading reports the refused choice of the kind. -/
theorem overlay_errors (s : Settings) (c : Entries) :
    (s.overlay c).2 = (c.refused? s.kind).toList := by
  cases s with
  | fetchShortlist s => exact congrArg Option.toList (c.choice_snd _ s.shortlistType _)
  | fetchShortlistPersistence s => exact congrArg Option.toList (c.choice_snd _ s.shortlistType _)
  | fetchCandles s => exact congrArg Option.toList (c.choice_snd _ s.interval _)
  | placeOrder s => exact congrArg Option.toList (c.choice_snd _ s.priceMode _)
  | conditional s => exact congrArg Option.toList (c.choice_snd _ s.operator _)
  | _ => rfl

/-- The choice of the kind, if there is one, is a word of its list. -/
def Fits : Settings → Prop
  | .fetchShortlist s => s.shortlistType ∈ shortlistTypes
  | .fetchShortlistPersistence s => s.shortlistType ∈ shortlistTypes
  | .fetchCandles s => s.interval ∈ candleIntervals
  | .placeOrder s => s.priceMode ∈ priceModes
  | .conditional s => s.operator ∈ Operator.all.map Operator.symbol
  | _ => True

/-- Every default choice is in its list. -/
theorem fits_default (kind : Kind) : (default kind).Fits := by
  cases kind <;> simp [default, Fits, shortlistTypes, candleIntervals, priceModes, Operator.all,
    Operator.symbol]

theorem fits_overlay {s : Settings} (h : s.Fits) (c : Entries) : (s.overlay c).1.Fits := by
  cases s with
  | fetchShortlist s => exact Entries.choice_fst_mem h
  | fetchShortlistPersistence s => exact Entries.choice_fst_mem h
  | fetchCandles s => exact Entries.choice_fst_mem h
  | placeOrder s => exact Entries.choice_fst_mem h
  | conditional s => exact Entries.choice_fst_mem h
  | _ => trivial

end Settings

end TradeFlow
