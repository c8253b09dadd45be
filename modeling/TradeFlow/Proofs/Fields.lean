import TradeFlow.Proofs.Overlay

/-!
The settings of a kind, key by key.

Settings are looked at through the entries that they are written out as. These determine them, and
reading entries on top of them changes one key at a time. What is proved:

1. `FieldType.isSome_read?`: a value is read for a setting exactly if it is acceptable.
2. `Settings.value?_overlay`: after reading, a setting has the value of its entry if that is
   acceptable, and the one it had before if not.
3. `Settings.ext_value?`: settings of one kind with the same values are the same.
4. `Entries.refused?_eq_some_iff`: what is refused is the value of a choice that is not in its list.
5. `Settings.overlay_of_get?`: settings that were written out are read back over others of the kind.
-/

namespace TradeFlow

/-- What a setting holds. -/
inductive FieldType where
  | text
  | flag
  | whole
  | number
  | texts
  | choice (allowed : List String)
  deriving DecidableEq, Repr

/-- The settings of a kind by their keys. -/
def Kind.fields : Kind → List (String × FieldType)
  | .strategyConfig =>
    [("startTime", .text), ("endTime", .text), ("intervalMinutes", .whole), ("strategyName", .text),
      ("tags", .texts)]
  | .fetchShortlist =>
    [("shortlistType", .choice shortlistTypes), ("useCurrentTimestamp", .flag), ("datetime", .text)]
  | .fetchShortlistPersistence =>
    [("shortlistType", .choice shortlistTypes), ("startDatetime", .text), ("endDatetime", .text)]
  | .fetchCandles =>
    [("symbol", .text), ("interval", .choice candleIntervals), ("startDatetime", .text),
      ("endDatetime", .text), ("useCurrentTimestampAsEnd", .flag)]
  | .fetchQuote => [("symbol", .text)]
  | .placeOrder =>
    [("nseSymbol", .text), ("entryPrice", .number), ("stopLossPrice", .number),
      ("takeProfitPrice", .number), ("useCurrentTimestamp", .flag), ("datetime", .text),
      ("priceMode", .choice priceModes), ("stopLossPercent", .number),
      ("takeProfitPercent", .number)]
  | .conditional =>
    [("field", .text), ("operator", .choice (Operator.all.map Operator.symbol)),
      ("compareValue", .number)]
  | .fetchDates | .fetchHolidays | .forEach => []

/-! ## Values of a setting -/

namespace Value

def isString : Value → Bool
  | .string _ => true
  | _ => false

end Value

namespace FieldType

/-- Whether a value can be taken over: numbers convert, but a whole number must be one and fit 64
bits, a list holds strings alone, and a choice is a word of its list. -/
def accepts : FieldType → Value → Bool
  | .text, .string _ => true
  | .flag, .bool _ => true
  | .whole, .int _ => true
  | .whole, .int64 _ => true
  | .whole, .float x => x.toInt?.any Value.fitsInt64
  | .number, .float _ => true
  | .number, .int _ => true
  | .number, .int64 _ => true
  | .texts, .strings _ => true
  | .texts, .list vs => vs.all Value.isString
  | .choice allowed, .string s => allowed.contains s
  | _, _ => false

/-- The value that a setting takes over, in the form in which settings are written out. -/
def read? : FieldType → Value → Option Value
  | .text, v => v.asString?.map .string
  | .flag, v => v.asBool?.map .bool
  | .whole, v => v.asInt?.map .int
  | .number, v => v.asFloat?.map .float
  | .texts, v => v.asStrings?.map .strings
  | .choice allowed, v => (v.asString?.filter (allowed.contains ·)).map .string

theorem isSome_mapM_asString? (vs : List Value) :
    (vs.mapM Value.asString?).isSome = vs.all Value.isString := by
  induction vs with
  | nil => rfl
  | cons v vs ih =>
    rw [List.all_cons, ← ih, List.mapM_cons]
    cases v <;> cases vs.mapM Value.asString? <;> rfl

theorem isSome_read? (type : FieldType) (v : Value) : (type.read? v).isSome = type.accepts v := by
  cases type with
  | texts =>
    cases v with
    | list vs => rw [read?, Option.isSome_map]; exact isSome_mapM_asString? vs
    | _ => rfl
  | whole =>
    cases v with
    | float x => rw [read?, Option.isSome_map]; exact Option.isSome_filter ..
    | _ => rfl
  | choice allowed =>
    cases v with
    | string s => rw [read?, Option.isSome_map]; exact Option.isSome_filter ..
    | _ => rfl
  | _ => cases v <;> rfl

/-- Whether a setting is written out in the form of a value. -/
def Writes : FieldType → Value → Prop
  | .text, .string _ => True
  | .flag, .bool _ => True
  | .whole, .int _ => True
  | .number, .float _ => True
  | .texts, .strings _ => True
  | .choice _, .string _ => True
  | _, _ => False

/-- Whether a setting is chosen from a list. -/
def isChoice : FieldType → Bool
  | .choice _ => true
  | _ => false

end FieldType

/-! ## One setting read -/

namespace Entries

variable (c : Entries) (key : String)

theorem some_getD_bind {α : Type} (o : Option Value) (as? : Value → Option α) (form : α → Value)
    (old : α) :
    some (form ((o.bind as?).getD old)) =
      (o.bind fun v => (as? v).map form).or (some (form old)) := by
  cases o with
  | none => rfl
  | some v =>
    rw [Option.bind_some, Option.bind_some]
    cases as? v <;> rfl

theorem some_string (old : String) :
    some (Value.string (c.string key old)) =
      ((c.get? key).bind FieldType.text.read?).or (some (.string old)) :=
  some_getD_bind _ _ Value.string old

theorem some_bool (old : Bool) :
    some (Value.bool (c.bool key old)) =
      ((c.get? key).bind FieldType.flag.read?).or (some (.bool old)) :=
  some_getD_bind _ _ Value.bool old

theorem some_int (old : Int) :
    some (Value.int (c.int key old)) =
      ((c.get? key).bind FieldType.whole.read?).or (some (.int old)) :=
  some_getD_bind _ _ Value.int old

theorem some_float (old : Binary64) :
    some (Value.float (c.float key old)) =
      ((c.get? key).bind FieldType.number.read?).or (some (.float old)) :=
  some_getD_bind _ _ Value.float old

theorem some_strings (old : List String) :
    some (Value.strings (c.strings key old)) =
      ((c.get? key).bind FieldType.texts.read?).or (some (.strings old)) :=
  some_getD_bind _ _ Value.strings old

theorem choice_fst (old : String) (allowed : List String) :
    (c.choice key old allowed).1 =
      ((c.get? key).bind fun v => v.asString?.filter (allowed.contains ·)).getD old := by
  unfold choice
  split
  · next h => rw [h]; rfl
  · next v h =>
    rw [h, Option.bind_some]
    split
    · next hword => rw [hword]; rfl
    · next hword => rw [hword]; rfl

theorem some_choice (old : String) (allowed : List String) :
    some (Value.string (c.choice key old allowed).1) =
      ((c.get? key).bind (FieldType.choice allowed).read?).or (some (.string old)) := by
  rw [choice_fst]
  exact some_getD_bind _ _ Value.string old

end Entries

/-! ## Settings as values -/

theorem Kind.nodup_fields (kind : Kind) : (kind.fields.map (·.1)).Nodup := by
  cases kind <;> decide

namespace Settings

/-- The value that is written out under a key. -/
def value? (s : Settings) (key : String) : Option Value := (s.entries?.getD []).get? key

variable {s s' : Settings} {c : Entries} {key : String} {type : FieldType}

/-- The settings of a kind are written out in the order of its table, and only then sorted. -/
theorem value?_eq {pairs : List (String × Value)} (hs : s.entries? = some (Entries.ofList pairs))
    (hkeys : pairs.map (·.1) = s.kind.fields.map (·.1)) (key : String) :
    s.value? key = Entries.get? pairs key := by
  rw [value?, hs, Option.getD_some]
  exact Entries.get?_ofList (hkeys ▸ s.kind.nodup_fields) key

theorem value?_overlay (h : (key, type) ∈ s.kind.fields) :
    (s.overlay c).1.value? key = ((c.get? key).bind type.read?).or (s.value? key) := by
  suffices hall : ∀ field ∈ s.kind.fields, (s.overlay c).1.value? field.1 =
      ((c.get? field.1).bind field.2.read?).or (s.value? field.1) from hall _ h
  cases s with
  | strategyConfig s =>
    have hold := value?_eq (s := strategyConfig s) rfl rfl
    have hnew := value?_eq (s := ((strategyConfig s).overlay c).1) rfl rfl
    simp only [hold, hnew, kind, Kind.fields, List.forall_mem_cons]
    exact ⟨c.some_string _ _, c.some_string _ _, c.some_int _ _, c.some_string _ _,
      c.some_strings _ _, nofun⟩
  | placeOrder s =>
    have hold := value?_eq (s := placeOrder s) rfl rfl
    have hnew := value?_eq (s := ((placeOrder s).overlay c).1) rfl rfl
    simp only [hold, hnew, kind, Kind.fields, List.forall_mem_cons]
    exact ⟨c.some_string _ _, c.some_float _ _, c.some_float _ _, c.some_float _ _,
      c.some_bool _ _, c.some_string _ _, c.some_choice _ _ _, c.some_float _ _, c.some_float _ _,
      nofun⟩
  | fetchShortlist s =>
    have hold := value?_eq (s := fetchShortlist s) rfl rfl
    have hnew := value?_eq (s := ((fetchShortlist s).overlay c).1) rfl rfl
    simp only [hold, hnew, kind, Kind.fields, List.forall_mem_cons]
    exact ⟨c.some_choice _ _ _, c.some_bool _ _, c.some_string _ _, nofun⟩
  | fetchShortlistPersistence s =>
    have hold := value?_eq (s := fetchShortlistPersistence s) rfl rfl
    have hnew := value?_eq (s := ((fetchShortlistPersistence s).overlay c).1) rfl rfl
    simp only [hold, hnew, kind, Kind.fields, List.forall_mem_cons]
    exact ⟨c.some_choice _ _ _, c.some_string _ _, c.some_string _ _, nofun⟩
  | fetchCandles s =>
    have hold := value?_eq (s := fetchCandles s) rfl rfl
    have hnew := value?_eq (s := ((fetchCandles s).overlay c).1) rfl rfl
    simp only [hold, hnew, kind, Kind.fields, List.forall_mem_cons]
    exact ⟨c.some_string _ _, c.some_choice _ _ _, c.some_string _ _, c.some_string _ _,
      c.some_bool _ _, nofun⟩
  | fetchQuote s =>
    have hold := value?_eq (s := fetchQuote s) rfl rfl
    have hnew := value?_eq (s := ((fetchQuote s).overlay c).1) rfl rfl
    simp only [hold, hnew, kind, Kind.fields, List.forall_mem_cons]
    exact ⟨c.some_string _ _, nofun⟩
  | conditional s =>
    have hold := value?_eq (s := conditional s) rfl rfl
    have hnew := value?_eq (s := ((conditional s).overlay c).1) rfl rfl
    simp only [hold, hnew, kind, Kind.fields, List.forall_mem_cons]
    exact ⟨c.some_string _ _, c.some_choice _ _ _, c.some_float _ _, nofun⟩
  | fetchDates => nofun
  | fetchHolidays => nofun
  | forEach => nofun

/-- Settings of one kind with the same values are the same. -/
theorem ext_value? (hkind : s.kind = s'.kind)
    (h : ∀ field ∈ s.kind.fields, s.value? field.1 = s'.value? field.1) : s = s' := by
  cases s <;> cases s' <;> cases hkind
  case strategyConfig.strategyConfig s s' =>
    have hs := value?_eq (s := strategyConfig s) rfl rfl
    have hs' := value?_eq (s := strategyConfig s') rfl rfl
    obtain ⟨_, _, _, _, _⟩ := s
    obtain ⟨_, _, _, _, _⟩ := s'
    simpa [hs, hs', kind, Kind.fields, Entries.get?_cons] using h
  case fetchShortlist.fetchShortlist s s' =>
    have hs := value?_eq (s := fetchShortlist s) rfl rfl
    have hs' := value?_eq (s := fetchShortlist s') rfl rfl
    obtain ⟨_, _, _⟩ := s
    obtain ⟨_, _, _⟩ := s'
    simpa [hs, hs', kind, Kind.fields, Entries.get?_cons] using h
  case fetchShortlistPersistence.fetchShortlistPersistence s s' =>
    have hs := value?_eq (s := fetchShortlistPersistence s) rfl rfl
    have hs' := value?_eq (s := fetchShortlistPersistence s') rfl rfl
    obtain ⟨_, _, _⟩ := s
    obtain ⟨_, _, _⟩ := s'
    simpa [hs, hs', kind, Kind.fields, Entries.get?_cons] using h
  case fetchCandles.fetchCandles s s' =>
    have hs := value?_eq (s := fetchCandles s) rfl rfl
    have hs' := value?_eq (s := fetchCandles s') rfl rfl
    obtain ⟨_, _, _, _, _⟩ := s
    obtain ⟨_, _, _, _, _⟩ := s'
    simpa [hs, hs', kind, Kind.fields, Entries.get?_cons] using h
  case fetchQuote.fetchQuote s s' =>
    have hs := value?_eq (s := fetchQuote s) rfl rfl
    have hs' := value?_eq (s := fetchQuote s') rfl rfl
    obtain ⟨_⟩ := s
    obtain ⟨_⟩ := s'
    simpa [hs, hs', kind, Kind.fields, Entries.get?_cons] using h
  case placeOrder.placeOrder s s' =>
    have hs := value?_eq (s := placeOrder s) rfl rfl
    have hs' := value?_eq (s := placeOrder s') rfl rfl
    obtain ⟨_, _, _, _, _, _, _, _, _⟩ := s
    obtain ⟨_, _, _, _, _, _, _, _, _⟩ := s'
    simpa [hs, hs', kind, Kind.fields, Entries.get?_cons] using h
  case conditional.conditional s s' =>
    have hs := value?_eq (s := conditional s) rfl rfl
    have hs' := value?_eq (s := conditional s') rfl rfl
    obtain ⟨_, _, _⟩ := s
    obtain ⟨_, _, _⟩ := s'
    simpa [hs, hs', kind, Kind.fields, Entries.get?_cons] using h
  all_goals rfl

/-- Every setting is written out, in the form of its type. -/
theorem exists_value? (h : (key, type) ∈ s.kind.fields) :
    ∃ v, s.value? key = some v ∧ type.Writes v := by
  suffices hall : ∀ field ∈ s.kind.fields, ∃ v, s.value? field.1 = some v ∧ field.2.Writes v from
    hall _ h
  cases s with
  | strategyConfig s =>
    have hs := value?_eq (s := strategyConfig s) rfl rfl
    simp only [hs, kind, Kind.fields, List.forall_mem_cons]
    exact ⟨⟨_, rfl, trivial⟩, ⟨_, rfl, trivial⟩, ⟨_, rfl, trivial⟩, ⟨_, rfl, trivial⟩,
      ⟨_, rfl, trivial⟩, nofun⟩
  | fetchShortlist s =>
    have hs := value?_eq (s := fetchShortlist s) rfl rfl
    simp only [hs, kind, Kind.fields, List.forall_mem_cons]
    exact ⟨⟨_, rfl, trivial⟩, ⟨_, rfl, trivial⟩, ⟨_, rfl, trivial⟩, nofun⟩
  | fetchShortlistPersistence s =>
    have hs := value?_eq (s := fetchShortlistPersistence s) rfl rfl
    simp only [hs, kind, Kind.fields, List.forall_mem_cons]
    exact ⟨⟨_, rfl, trivial⟩, ⟨_, rfl, trivial⟩, ⟨_, rfl, trivial⟩, nofun⟩
  | fetchCandles s =>
    have hs := value?_eq (s := fetchCandles s) rfl rfl
    simp only [hs, kind, Kind.fields, List.forall_mem_cons]
    exact ⟨⟨_, rfl, trivial⟩, ⟨_, rfl, trivial⟩, ⟨_, rfl, trivial⟩, ⟨_, rfl, trivial⟩,
      ⟨_, rfl, trivial⟩, nofun⟩
  | fetchQuote s =>
    have hs := value?_eq (s := fetchQuote s) rfl rfl
    simp only [hs, kind, Kind.fields, List.forall_mem_cons]
    exact ⟨⟨_, rfl, trivial⟩, nofun⟩
  | placeOrder s =>
    have hs := value?_eq (s := placeOrder s) rfl rfl
    simp only [hs, kind, Kind.fields, List.forall_mem_cons]
    exact ⟨⟨_, rfl, trivial⟩, ⟨_, rfl, trivial⟩, ⟨_, rfl, trivial⟩, ⟨_, rfl, trivial⟩,
      ⟨_, rfl, trivial⟩, ⟨_, rfl, trivial⟩, ⟨_, rfl, trivial⟩, ⟨_, rfl, trivial⟩,
      ⟨_, rfl, trivial⟩, nofun⟩
  | conditional s =>
    have hs := value?_eq (s := conditional s) rfl rfl
    simp only [hs, kind, Kind.fields, List.forall_mem_cons]
    exact ⟨⟨_, rfl, trivial⟩, ⟨_, rfl, trivial⟩, ⟨_, rfl, trivial⟩, nofun⟩
  | fetchDates => nofun
  | fetchHolidays => nofun
  | forEach => nofun

end Settings

/-! ## Choices -/

theorem Kind.mem_fields_choice_iff {kind : Kind} {key : String} {allowed : List String} :
    (key, FieldType.choice allowed) ∈ kind.fields ↔ kind.choice? = some (key, allowed) := by
  cases kind <;> simp [fields, choice?, eq_comm]

/-- The choice of a kind has a value that is no word of its list. -/
structure Kind.Refuses (kind : Kind) (c : Entries) (e : ChoiceError) : Prop where
  choice : (e.key, FieldType.choice e.allowed) ∈ kind.fields
  given : c.get? e.key = some e.value
  unlisted : ∀ word ∈ e.allowed, e.value ≠ .string word

/-- Entries are refused for the value of a choice that is not in its list. -/
theorem Entries.refused?_eq_some_iff {c : Entries} {kind : Kind} {e : ChoiceError} :
    c.refused? kind = some e ↔ kind.Refuses c e := by
  obtain ⟨key, value, allowed⟩ := e
  constructor
  · intro h
    obtain ⟨⟨key', allowed'⟩, hchoice, h⟩ := Option.bind_eq_some_iff.1 h
    obtain ⟨value', hvalue, h⟩ := Option.bind_eq_some_iff.1 h
    rw [← Kind.mem_fields_choice_iff] at hchoice
    cases value' with
    | string word =>
      simp only [Option.ite_none_left_eq_some] at h
      cases h.2
      refine ⟨hchoice, hvalue, fun word' hword' heq => h.1 ?_⟩
      cases heq
      exact hword'
    | _ =>
      cases h
      exact ⟨hchoice, hvalue, fun _ _ => nofun⟩
  · rintro ⟨hchoice, hvalue, hword⟩
    rw [Kind.mem_fields_choice_iff] at hchoice
    refine Option.bind_eq_some_iff.2 ⟨_, hchoice, Option.bind_eq_some_iff.2 ⟨_, hvalue, ?_⟩⟩
    cases value with
    | string word => exact if_neg fun hmem => hword word hmem rfl
    | _ => rfl

namespace Settings

variable {s : Settings} {key : String} {allowed : List String}

instance : DecidablePred Fits
  | .fetchShortlist s => inferInstanceAs (Decidable (s.shortlistType ∈ shortlistTypes))
  | .fetchShortlistPersistence s => inferInstanceAs (Decidable (s.shortlistType ∈ shortlistTypes))
  | .fetchCandles s => inferInstanceAs (Decidable (s.interval ∈ candleIntervals))
  | .placeOrder s => inferInstanceAs (Decidable (s.priceMode ∈ priceModes))
  | .conditional s =>
    inferInstanceAs (Decidable (s.operator ∈ Operator.all.map Operator.symbol))
  | .strategyConfig _ | .fetchQuote _ | .fetchDates | .fetchHolidays | .forEach => .isTrue trivial

theorem fits_of_choice?_eq_none (h : s.kind.choice? = none) : s.Fits := by
  cases s <;> trivial

/-- The choice is written out as its word, and the settings fit if this is in the list. -/
theorem exists_word (h : s.kind.choice? = some (key, allowed)) :
    ∃ word, s.value? key = some (.string word) ∧ (s.Fits ↔ word ∈ allowed) := by
  cases s with
  | fetchShortlist s => cases h; exact ⟨_, (value?_eq rfl rfl _).trans rfl, .rfl⟩
  | fetchShortlistPersistence s => cases h; exact ⟨_, (value?_eq rfl rfl _).trans rfl, .rfl⟩
  | fetchCandles s => cases h; exact ⟨_, (value?_eq rfl rfl _).trans rfl, .rfl⟩
  | placeOrder s => cases h; exact ⟨_, (value?_eq rfl rfl _).trans rfl, .rfl⟩
  | conditional s => cases h; exact ⟨_, (value?_eq rfl rfl _).trans rfl, .rfl⟩
  | _ => cases h

end Settings

/-! ## Written out and read back -/

/-- A change of the form of values that readers of settings do not notice, except perhaps those of
whole numbers. -/
structure Value.Transparent (f : Value → Value) : Prop where
  string : ∀ s, f (.string s) = .string s
  bool : ∀ b, f (.bool b) = .bool b
  float : ∀ x, f (.float x) = .float x
  strings : ∀ ss, (f (.strings ss)).asStrings? = some ss

theorem Value.transparent_id : Value.Transparent fun v => v :=
  ⟨fun _ => rfl, fun _ => rfl, fun _ => rfl, fun _ => rfl⟩

namespace Settings

variable {f : Value → Value} {s base : Settings} {c : Entries} {key : String} {type : FieldType}

/-- Settings that were written out, when values come back in another form: an interval that cannot be
read is left as it was. -/
def restored (f : Value → Value) : Settings → Settings → Settings
  | .strategyConfig base, .strategyConfig s =>
    .strategyConfig { s with
      intervalMinutes := (f (.int s.intervalMinutes)).asInt?.getD base.intervalMinutes }
  | _, s => s

theorem restored_id (base s : Settings) : restored (fun v => v) base s = s := by
  unfold restored
  split <;> rfl

theorem kind_restored (f : Value → Value) (base s : Settings) :
    (restored f base s).kind = s.kind := by
  unfold restored
  split <;> rfl

theorem exists_strategyConfig (h : s.kind = .strategyConfig) :
    ∃ config, s = .strategyConfig config := by
  cases s with
  | strategyConfig config => exact ⟨config, rfl⟩
  | _ => cases h

theorem restored_of_kind_ne (h : s.kind ≠ .strategyConfig) : restored f base s = s := by
  cases s with
  | strategyConfig s => exact absurd rfl h
  | _ => cases base <;> rfl

/-- Only a whole number may come back as something else. -/
theorem value?_restored (hkind : base.kind = s.kind) (h : (key, type) ∈ s.kind.fields) :
    (restored f base s).value? key =
      if type = .whole then (((s.value? key).map f).bind type.read?).or (base.value? key)
      else s.value? key := by
  by_cases hs : s.kind = .strategyConfig
  · obtain ⟨s, rfl⟩ := exists_strategyConfig hs
    obtain ⟨base, rfl⟩ := exists_strategyConfig hkind
    have hold := value?_eq (s := strategyConfig s) rfl rfl
    have hbase := value?_eq (s := strategyConfig base) rfl rfl
    have hnew := value?_eq (s := restored f (strategyConfig base) (strategyConfig s)) rfl rfl
    simp only [hold, hbase, hnew]
    simp only [kind, Kind.fields, List.mem_cons, Prod.mk.injEq, List.not_mem_nil, or_false] at h
    rcases h with ⟨rfl, rfl⟩ | ⟨rfl, rfl⟩ | ⟨rfl, rfl⟩ | ⟨rfl, rfl⟩ | ⟨rfl, rfl⟩
    · rfl
    · rfl
    · rw [if_pos rfl]
      exact Entries.some_getD_bind (some (f (.int s.intervalMinutes))) Value.asInt? Value.int _
    · rfl
    · rfl
  · have htype : type ≠ .whole := by
      rintro rfl
      cases s <;> simp [kind, Kind.fields] at h hs
    rw [if_neg htype, restored_of_kind_ne hs]

/-- What is written out is read back over any settings of the kind, except for a choice that is not
in its list. -/
theorem value?_overlay_of_get? (hkind : base.kind = s.kind) (hf : Value.Transparent f)
    (hc : ∀ key, c.get? key = (s.value? key).map f) (h : (key, type) ∈ s.kind.fields) :
    (base.overlay c).1.value? key =
      if type.isChoice ∧ ¬s.Fits then base.value? key else (restored f base s).value? key := by
  obtain ⟨v, hv, hwritten⟩ := exists_value? h
  rw [value?_overlay (hkind ▸ h), hc, value?_restored hkind h, hv, Option.map_some,
    Option.bind_some]
  match type, v, hwritten with
  | .text, .string x, _ => rw [hf.string]; rfl
  | .flag, .bool b, _ => rw [hf.bool]; rfl
  | .whole, .int i, _ => rfl
  | .number, .float x, _ => rw [hf.float]; rfl
  | .texts, .strings ss, _ =>
    rw [FieldType.read?, hf.strings]
    rfl
  | .choice allowed, .string word, _ =>
    obtain ⟨word', hword', hfits⟩ := exists_word (Kind.mem_fields_choice_iff.1 h)
    obtain rfl : word = word' := by
      rw [hv] at hword'
      exact Value.string.inj (Option.some.inj hword')
    rw [hf.string]
    by_cases hmem : word ∈ allowed
    · simp [FieldType.read?, Value.asString?, Option.filter, hmem, hfits]
    · simp [FieldType.read?, Value.asString?, Option.filter, hmem, hfits, FieldType.isChoice]

theorem overlay_of_get? (hkind : base.kind = s.kind) (hfits : s.Fits) (hf : Value.Transparent f)
    (hc : ∀ key, c.get? key = (s.value? key).map f) :
    base.overlay c = (restored f base s, []) := by
  refine Prod.ext (ext_value? ?_ fun field hfield => ?_) ?_
  · rw [kind_overlay, kind_restored, hkind]
  · rw [kind_overlay, hkind] at hfield
    rw [value?_overlay_of_get? hkind hf hc hfield, if_neg fun h => h.2 hfits]
  · cases hrefused : c.refused? base.kind with
    | none => rw [overlay_errors, hrefused]; rfl
    | some e =>
      obtain ⟨hfield, hvalue, hout⟩ := Entries.refused?_eq_some_iff.1 hrefused
      obtain ⟨word, hword, hiff⟩ := exists_word (hkind ▸ Kind.mem_fields_choice_iff.1 hfield)
      rw [hc, hword, Option.map_some, hf.string] at hvalue
      exact absurd (Option.some.inj hvalue).symm (hout word (hiff.1 hfits))

end Settings

end TradeFlow
