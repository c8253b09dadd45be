import TradeFlow.Document.Build
import TradeFlow.Proofs.Fields

/-!
Settings read from documents.

Each setting is read on its own: its entry replaces it if the value is acceptable, and nothing else
does. So reading twice is reading once from entries that are merged key by key, and the entries of
settings give them back over any others of the kind. What is proved:

1. `Settings.overlay_congr`: only the settings of the kind are looked at.
2. `Settings.overlay_overlay`: reading twice is reading the merged entries once.
3. `Settings.overlay_entries` and `Settings.overlay_entries_of_not_fits`: what is written out is read
   back, except for a choice that is not in its list.
4. `NodeConfig.overlay_laws` and `NodeConfig.overlay_entries_iff`: the same of nodes, together with
   what is reported.
-/

namespace TradeFlow

/-! ## Reading twice -/

/-- The value of the later entries if it is acceptable, and else what the earlier ones have. -/
def FieldType.prefer (type : FieldType) (earlier later : Option Value) : Option Value :=
  (later.filter type.accepts).or earlier

/-- For each setting of a kind, entries hold the value of the later ones if that is acceptable, and
else what the earlier ones have, if anything. -/
def Entries.Merges (m earlier later : Entries) (kind : Kind) : Prop :=
  ∀ field ∈ kind.fields, m.get? field.1 = field.2.prefer (earlier.get? field.1) (later.get? field.1)

namespace FieldType

variable {type : FieldType} {v : Value} {earlier : Option Value}

theorem prefer_of_accepts (h : type.accepts v = true) : type.prefer earlier (some v) = some v := by
  rw [prefer, Option.filter_some, if_pos h, Option.some_or]

theorem prefer_of_not_accepts (h : type.accepts v = false) :
    type.prefer earlier (some v) = earlier := by
  rw [prefer, Option.filter_some, h]
  exact Option.none_or

theorem prefer_self (type : FieldType) (o : Option Value) : type.prefer o o = o := by
  cases o with
  | none => rfl
  | some v =>
    cases h : type.accepts v with
    | true => exact prefer_of_accepts h
    | false => exact prefer_of_not_accepts h

/-- The preferred value is read where the later one can be read, and else where the earlier one can. -/
theorem bind_prefer (type : FieldType) (earlier later : Option Value) :
    (type.prefer earlier later).bind type.read? =
      (later.bind type.read?).or (earlier.bind type.read?) := by
  cases later with
  | none => rfl
  | some v =>
    cases h : type.accepts v with
    | true =>
      obtain ⟨w, hw⟩ := Option.isSome_iff_exists.1 ((type.isSome_read? v).trans h)
      rw [prefer_of_accepts h, Option.bind_some, hw, Option.some_or]
    | false =>
      have hnone : type.read? v = none := by
        rw [← Option.not_isSome_iff_eq_none, isSome_read?, h]
        exact Bool.false_ne_true
      rw [prefer_of_not_accepts h, Option.bind_some, hnone, Option.none_or]

end FieldType

namespace Entries

/-- The entries for the settings of a kind, from the table of the kind. -/
def merged (earlier later : Entries) (kind : Kind) : Entries :=
  kind.fields.filterMap fun field =>
    (field.2.prefer (earlier.get? field.1) (later.get? field.1)).map (field.1, ·)

theorem map_fst_filterMap_sublist {α : Type} (value? : String × α → Option Value)
    (fields : List (String × α)) :
    ((fields.filterMap fun f => (value? f).map (f.1, ·)).map (·.1)).Sublist
      (fields.map (·.1)) := by
  induction fields with
  | nil => exact .slnil
  | cons f rest ih =>
    cases hvalue : value? f with
    | none =>
      rw [List.filterMap_cons_none (by rw [hvalue]; rfl)]
      exact ih.cons _
    | some v =>
      rw [List.filterMap_cons_some (by rw [hvalue]; rfl)]
      exact ih.cons_cons _

/-- With distinct keys, each one keeps the value that it was given. -/
theorem get?_filterMap {α : Type} (value? : String × α → Option Value) {fields : List (String × α)}
    (h : (fields.map (·.1)).Nodup) {field : String × α} (hmem : field ∈ fields) :
    get? (fields.filterMap fun f => (value? f).map (f.1, ·)) field.1 = value? field := by
  have hkeys := (map_fst_filterMap_sublist value? fields).nodup h
  ext v
  rw [get?_eq_some_iff hkeys, List.mem_filterMap]
  constructor
  · rintro ⟨f, hf, hv⟩
    obtain ⟨w, hw, heq⟩ := Option.map_eq_some_iff.1 hv
    obtain ⟨hkey, rfl⟩ := Prod.mk.inj heq
    rwa [← List.inj_on_of_nodup_map h hf hmem hkey]
  · intro hv
    exact ⟨field, hmem, by rw [hv]; rfl⟩

theorem merges_merged (earlier later : Entries) (kind : Kind) :
    (merged earlier later kind).Merges earlier later kind := by
  intro field hfield
  exact get?_filterMap (fun f => f.2.prefer (earlier.get? f.1) (later.get? f.1)) kind.nodup_fields
    hfield

end Entries

namespace Settings

variable {base s : Settings} {c c' : Entries}

theorem refuses_congr {kind : Kind} {e : ChoiceError}
    (h : ∀ field ∈ kind.fields, c'.get? field.1 = c.get? field.1) :
    kind.Refuses c' e ↔ kind.Refuses c e := by
  constructor
  · intro hrefuses
    exact ⟨hrefuses.choice, (h _ hrefuses.choice).symm.trans hrefuses.given, hrefuses.unlisted⟩
  · intro hrefuses
    exact ⟨hrefuses.choice, (h _ hrefuses.choice).trans hrefuses.given, hrefuses.unlisted⟩

/-- Only the settings of the kind are looked at. -/
theorem overlay_congr (h : ∀ field ∈ base.kind.fields, c'.get? field.1 = c.get? field.1) :
    base.overlay c' = base.overlay c := by
  apply Prod.ext
  · apply ext_value?
    · rw [kind_overlay, kind_overlay]
    · intro field hfield
      rw [kind_overlay] at hfield
      rw [value?_overlay hfield, value?_overlay hfield, h field hfield]
  · have hrefused : c'.refused? base.kind = c.refused? base.kind := by
      ext e
      rw [Entries.refused?_eq_some_iff, Entries.refused?_eq_some_iff, refuses_congr h]
    rw [overlay_errors, overlay_errors, hrefused]

/-- Reading twice is reading the merged entries once. -/
theorem overlay_overlay {m : Entries} (h : m.Merges c c' base.kind) :
    ((base.overlay c).1.overlay c').1 = (base.overlay m).1 := by
  apply ext_value?
  · rw [kind_overlay, kind_overlay, kind_overlay]
  · intro field hfield
    rw [kind_overlay, kind_overlay] at hfield
    have hfield' : field ∈ (base.overlay c).1.kind.fields := by rwa [kind_overlay]
    rw [value?_overlay hfield', value?_overlay hfield, value?_overlay hfield, h field hfield,
      FieldType.bind_prefer, Option.or_assoc]

/-- Reading the same entries again changes nothing. -/
theorem overlay_idem (base : Settings) (c : Entries) :
    (base.overlay c).1.overlay c = base.overlay c := by
  apply Prod.ext
  · exact overlay_overlay fun field _ => (field.2.prefer_self _).symm
  · rw [overlay_errors, overlay_errors, kind_overlay]

/-! ## Written out and read back over other settings -/

/-- Settings with the choice of other settings of the kind, if there is one. -/
def withChoiceOf (s base : Settings) : Settings :=
  match s, base with
  | .fetchShortlist s, .fetchShortlist b => .fetchShortlist { s with shortlistType := b.shortlistType }
  | .fetchShortlistPersistence s, .fetchShortlistPersistence b =>
    .fetchShortlistPersistence { s with shortlistType := b.shortlistType }
  | .fetchCandles s, .fetchCandles b => .fetchCandles { s with interval := b.interval }
  | .placeOrder s, .placeOrder b => .placeOrder { s with priceMode := b.priceMode }
  | .conditional s, .conditional b => .conditional { s with operator := b.operator }
  | s, _ => s

theorem kind_withChoiceOf (s base : Settings) : (s.withChoiceOf base).kind = s.kind := by
  unfold withChoiceOf
  split <;> rfl

theorem value?_withChoiceOf (hkind : base.kind = s.kind) {field : String × FieldType}
    (h : field ∈ s.kind.fields) : (s.withChoiceOf base).value? field.1 =
      if field.2.isChoice then base.value? field.1 else s.value? field.1 := by
  revert field
  cases s <;> cases base <;> cases hkind
  case fetchShortlist.fetchShortlist s b =>
    have hs := value?_eq (s := fetchShortlist s) rfl rfl
    have hb := value?_eq (s := fetchShortlist b) rfl rfl
    have hnew := value?_eq (s := withChoiceOf (fetchShortlist s) (fetchShortlist b)) rfl rfl
    simp [hs, hb, hnew, kind, Kind.fields, FieldType.isChoice, Entries.get?_cons]
  case fetchShortlistPersistence.fetchShortlistPersistence s b =>
    have hs := value?_eq (s := fetchShortlistPersistence s) rfl rfl
    have hb := value?_eq (s := fetchShortlistPersistence b) rfl rfl
    have hnew := value?_eq
      (s := withChoiceOf (fetchShortlistPersistence s) (fetchShortlistPersistence b)) rfl rfl
    simp [hs, hb, hnew, kind, Kind.fields, FieldType.isChoice, Entries.get?_cons]
  case fetchCandles.fetchCandles s b =>
    have hs := value?_eq (s := fetchCandles s) rfl rfl
    have hb := value?_eq (s := fetchCandles b) rfl rfl
    have hnew := value?_eq (s := withChoiceOf (fetchCandles s) (fetchCandles b)) rfl rfl
    simp [hs, hb, hnew, kind, Kind.fields, FieldType.isChoice, Entries.get?_cons]
  case placeOrder.placeOrder s b =>
    have hs := value?_eq (s := placeOrder s) rfl rfl
    have hb := value?_eq (s := placeOrder b) rfl rfl
    have hnew := value?_eq (s := withChoiceOf (placeOrder s) (placeOrder b)) rfl rfl
    simp [hs, hb, hnew, kind, Kind.fields, FieldType.isChoice, Entries.get?_cons]
  case conditional.conditional s b =>
    have hs := value?_eq (s := conditional s) rfl rfl
    have hb := value?_eq (s := conditional b) rfl rfl
    have hnew := value?_eq (s := withChoiceOf (conditional s) (conditional b)) rfl rfl
    simp [hs, hb, hnew, kind, Kind.fields, FieldType.isChoice, Entries.get?_cons]
  all_goals simp [withChoiceOf, kind, Kind.fields, FieldType.isChoice]

/-- What is written out is read back over any settings of the kind. -/
theorem overlay_entries (hkind : base.kind = s.kind) (h : s.Fits) :
    base.overlay (s.entries?.getD []) = (s, []) := by
  rw [overlay_of_get? hkind h Value.transparent_id fun _ => Option.map_id'.symm, restored_id]

/-- A choice that is not in its list stays as it was, and is reported. -/
theorem overlay_entries_of_not_fits (hkind : base.kind = s.kind) (h : ¬s.Fits) :
    ∃ key word allowed, s.kind.choice? = some (key, allowed) ∧
      s.value? key = some (.string word) ∧ word ∉ allowed ∧
      base.overlay (s.entries?.getD []) =
        (s.withChoiceOf base, [{ key, value := .string word, allowed }]) := by
  obtain ⟨⟨key, allowed⟩, hchoice⟩ : ∃ choice, s.kind.choice? = some choice := by
    rw [← Option.ne_none_iff_exists']
    exact fun hnone => h (fits_of_choice?_eq_none hnone)
  obtain ⟨word, hword, hfits⟩ := exists_word hchoice
  have hmem : word ∉ allowed := fun hmem => h (hfits.2 hmem)
  refine ⟨key, word, allowed, hchoice, hword, hmem, Prod.ext ?_ ?_⟩
  · apply ext_value?
    · rw [kind_overlay, kind_withChoiceOf, hkind]
    · intro field hfield
      rw [kind_overlay, hkind] at hfield
      rw [value?_overlay_of_get? hkind Value.transparent_id (fun _ => Option.map_id'.symm) hfield,
        restored_id, value?_withChoiceOf hkind hfield]
      simp only [h, not_false_eq_true, and_true]
  · have hrefused : Entries.refused? (s.entries?.getD []) s.kind =
        some { key, value := .string word, allowed } := by
      refine Entries.refused?_eq_some_iff.2 ⟨Kind.mem_fields_choice_iff.2 hchoice, hword, ?_⟩
      rintro word' hword' ⟨⟩
      exact hmem hword'
    rw [overlay_errors, hkind, hrefused]
    rfl

end Settings

/-! ## Nodes -/

namespace NodeConfig

theorem overlay_sealed (s : Settings) (node : String) (c : Entries) :
    (NodeConfig.sealed s).overlay node c =
      (.sealed (s.overlay c).1, (s.overlay c).2.map fun cause => { node, cause }) := rfl

/-- One error is reported for each choice that is refused. -/
theorem mem_overlay_errors {s : Settings} {node : String} {c : Entries} {e : FieldError} :
    e ∈ ((NodeConfig.sealed s).overlay node c).2 ↔ e.node = node ∧ s.kind.Refuses c e.cause := by
  rw [overlay_sealed, s.overlay_errors, ← Entries.refused?_eq_some_iff, List.mem_map]
  constructor
  · rintro ⟨cause, hcause, rfl⟩
    exact ⟨rfl, Option.mem_toList.1 hcause⟩
  · rintro ⟨rfl, hcause⟩
    exact ⟨e.cause, Option.mem_toList.2 hcause, rfl⟩

theorem nodup_overlay_errors (s : Settings) (node : String) (c : Entries) :
    (((NodeConfig.sealed s).overlay node c).2.map (·.cause.key)).Nodup := by
  rw [overlay_sealed, s.overlay_errors]
  cases c.refused? s.kind with
  | none => exact List.nodup_nil
  | some cause => exact List.nodup_singleton _

/-- Reading entries on top of the settings of a node gives settings of the kind again. Each setting
takes the value of its entry if this is acceptable, and stays as it was if not; keys that are no
settings are ignored. Reading twice is reading once from entries that have the later value of a key
where it is acceptable, and the earlier one otherwise. An error is reported for each choice that has
a value which is no word of its list, and for nothing else. -/
theorem overlay_laws (node : String) (base : Settings) (c : Entries) :
    let read := fun (config : NodeConfig) (c : Entries) => config.overlay node c
    let result := read (.sealed base) c
    (∃ s, result.1 = .sealed s ∧ s.kind = base.kind ∧ ∀ field ∈ base.kind.fields,
      s.value? field.1 = ((c.get? field.1).bind field.2.read?).or (base.value? field.1)) ∧
    (∀ c' : Entries, (∀ field ∈ base.kind.fields, c'.get? field.1 = c.get? field.1) →
      read (.sealed base) c' = result) ∧
    (∀ c' : Entries, (∃ m : Entries, m.Merges c c' base.kind) ∧
      ∀ m : Entries, m.Merges c c' base.kind →
        (read result.1 c').1 = (read (.sealed base) m).1) ∧
    read result.1 c = result ∧
    (result.2 ≠ [] ↔ ∃ cause, base.kind.Refuses c cause) ∧
    (∀ e, e ∈ result.2 ↔ e.node = node ∧ base.kind.Refuses c e.cause) ∧
    (result.2.map (·.cause.key)).Nodup := by
  intro read result
  have hread : ∀ (s : Settings) (c : Entries), read (.sealed s) c =
      (.sealed (s.overlay c).1, (s.overlay c).2.map fun cause => { node, cause }) :=
    fun s c => overlay_sealed s node c
  have hresult : result.1 = .sealed (base.overlay c).1 := congrArg Prod.fst (hread base c)
  refine ⟨⟨_, hresult, base.kind_overlay c, fun field hfield => Settings.value?_overlay hfield⟩,
    ?_, ?_, ?_, ?_, fun e => mem_overlay_errors, nodup_overlay_errors base node c⟩
  · intro c' h
    show read (.sealed base) c' = read (.sealed base) c
    rw [hread, hread, Settings.overlay_congr h]
  · intro c'
    refine ⟨⟨_, Entries.merges_merged c c' base.kind⟩, fun m h => ?_⟩
    rw [hresult, hread, hread, Settings.overlay_overlay h]
  · rw [hresult, hread, Settings.overlay_idem]
    exact (hread base c).symm
  · constructor
    · intro hne
      obtain ⟨e, he⟩ := List.exists_mem_of_ne_nil _ hne
      exact ⟨e.cause, (mem_overlay_errors.1 he).2⟩
    · rintro ⟨cause, hcause⟩
      have he : { node, cause } ∈ result.2 := mem_overlay_errors.2 ⟨rfl, hcause⟩
      exact List.ne_nil_of_mem he

/-- A price that is a whole number, and a mode from the list. -/
def manualEntries : Entries := [("entryPrice", .int 100), ("priceMode", .string "manual")]

/-- A price that is no number, a mode that is not in the list, and one more price. -/
def limitEntries : Entries :=
  [("entryPrice", .string "high"), ("priceMode", .string "limit"), ("stopLossPrice", .float 95)]

/-- Of the later entries only the other price is taken over. -/
theorem limitEntries_overlaid :
    let read := fun (config : NodeConfig) (c : Entries) => config.overlay "o" c
    let base := NodeConfig.sealed (.default .placeOrder)
    (read (read base manualEntries).1 limitEntries).1 =
        (read base [("entryPrice", .int 100), ("priceMode", .string "manual"),
          ("stopLossPrice", .float 95)]).1 ∧
      (read base manualEntries).2 = [] ∧ (read base limitEntries).2 ≠ [] := by
  obtain ⟨-, -, htwice, -⟩ := overlay_laws "o" (.default .placeOrder) manualEntries
  obtain ⟨-, -, -, -, hsome, -⟩ := overlay_laws "o" (.default .placeOrder) limitEntries
  refine ⟨(htwice limitEntries).2 _ ?_, rfl, hsome.2 ⟨⟨"priceMode", .string "limit", priceModes⟩, ?_⟩⟩
  · have hkind : (Settings.default .placeOrder).kind = .placeOrder := rfl
    simp only [Entries.Merges, hkind, Kind.fields, List.forall_mem_cons]
    exact ⟨rfl, rfl, rfl, rfl, rfl, rfl, rfl, rfl, rfl, fun _ h => absurd h List.not_mem_nil⟩
  · refine ⟨by decide, rfl, fun word hword heq => ?_⟩
    have hlimit : "limit" ∈ priceModes := Value.string.inj heq ▸ hword
    exact absurd hlimit (by decide)

/-- Settings give themselves back from their entries over any settings of the kind, exactly if their
choice is in its list. Otherwise the choice stays as it was, everything else is given back, and the
one error names the choice. -/
theorem overlay_entries_iff (node : String) {base s : Settings} (hkind : base.kind = s.kind) :
    let result := (NodeConfig.sealed base).overlay node ((NodeConfig.sealed s).entries?.getD [])
    (result = (.sealed s, []) ↔ s.Fits) ∧
    (¬s.Fits → ∃ key word allowed, s.kind.choice? = some (key, allowed) ∧
      s.value? key = some (.string word) ∧ word ∉ allowed ∧
      result = (.sealed (s.withChoiceOf base),
        [{ node, cause := { key, value := .string word, allowed } }])) := by
  intro result
  have hresult : result = (.sealed (base.overlay (s.entries?.getD [])).1,
      (base.overlay (s.entries?.getD [])).2.map fun cause => { node, cause }) := rfl
  have hout : ¬s.Fits → ∃ key word allowed, s.kind.choice? = some (key, allowed) ∧
      s.value? key = some (.string word) ∧ word ∉ allowed ∧
      result = (.sealed (s.withChoiceOf base),
        [{ node, cause := { key, value := .string word, allowed } }]) := by
    intro h
    obtain ⟨key, word, allowed, hchoice, hword, hmem, hoverlay⟩ :=
      Settings.overlay_entries_of_not_fits hkind h
    exact ⟨key, word, allowed, hchoice, hword, hmem, by rw [hresult, hoverlay]; rfl⟩
  refine ⟨⟨fun hsame => ?_, fun h => ?_⟩, hout⟩
  · by_contra h
    obtain ⟨key, word, allowed, -, -, -, herror⟩ := hout h
    rw [hsame] at herror
    exact List.cons_ne_nil _ _ (congrArg Prod.snd herror).symm
  · rw [hresult, Settings.overlay_entries hkind h]
    rfl

/-- A misspelt operator is not taken over, but the rest of the condition is. -/
theorem misspelt_operator_kept :
    (NodeConfig.sealed (.conditional ⟨"volume", ">=", 5⟩)).overlay "b"
        ((NodeConfig.sealed (.conditional ⟨"close", "=>", 2⟩)).entries?.getD []) =
      (.sealed (.conditional ⟨"close", ">=", 2⟩),
        [⟨"b", ⟨"operator", .string "=>", [">", "<", ">=", "<=", "==", "!="]⟩⟩]) := by
  have hkind : (Settings.conditional ⟨"volume", ">=", 5⟩).kind =
      (Settings.conditional ⟨"close", "=>", 2⟩).kind := rfl
  obtain ⟨-, hout⟩ := overlay_entries_iff "b" hkind
  obtain ⟨key, word, allowed, hchoice, hword, -, hresult⟩ := hout (by decide)
  cases hchoice
  cases hword
  exact hresult

end NodeConfig

end TradeFlow
