import TradeFlow.Proofs.Document.Json

/-!
Literals as object notation.

What programs write as string and array literals is object notation as well, without blanks. What is
proved:

1. `Spells.literal`, `Spells.literals`, `Spells.objectText`: what literals and compact objects spell.
2. `Entries.decode_objectText`: the entries of a compact object are its members.
3. `Literal.ofString_delimits_itself`: a literal is read back whatever follows it, and from the objects
   that hold it.
-/

namespace TradeFlow

namespace Json

open Literal (ofString ofStrings)

variable {levels : Nat}

/-! ## Arrays of literals -/

theorem Spells.literal (s : String) : Spells levels (ofString s).toList (.string s) := by
  rw [Literal.toList_ofString]
  exact .string Literal.readable_escape s

theorem Spells.literals (ss : List String) :
    Spells (levels + 1) (ofStrings ss).toList (.array (ss.map .string)) := by
  have htext : (ofStrings ss).toList =
      '[' :: ([','].intercalate (ss.map fun s => (ofString s).toList) ++ [']']) := by
    simp only [ofStrings, String.toList_append, String.toList_intercalate, List.map_map,
      Function.comp_def]
    rfl
  rw [htext]
  cases ss with
  | nil => exact .array_nil
  | cons s ss =>
    have hitems : List.Forall₂ (Spells levels) (ss.map fun s => (ofString s).toList)
        (ss.map .string) := by
      rw [List.forall₂_map_left_iff, List.forall₂_map_right_iff, List.forall₂_same]
      exact fun s _ => .literal s
    have harray := Spells.array blank_nil blank_nil (.literal s) hitems
    rw [List.nil_append, List.nil_append] at harray
    rw [List.map_cons, List.map_cons, intercalate_comma, List.append_assoc]
    exact harray

/-! ## Objects of members -/

/-- A compact object of members, each a name and the text of a value. -/
def objectText (members : List (String × String)) : String :=
  "\x7b" ++ ",".intercalate (members.map fun m => ofString m.1 ++ ":" ++ m.2) ++ "\x7d"

theorem toList_objectText (members : List (String × String)) :
    (objectText members).toList =
      '\x7b' :: ([','].intercalate (members.map fun m => (ofString m.1 ++ ":" ++ m.2).toList)
        ++ ['\x7d']) := by
  simp only [objectText, String.toList_append, String.toList_intercalate, List.map_map,
    Function.comp_def]
  rfl

/-- A member has its name, and its text is read as its value. -/
structure MemberSpells (levels : Nat) (member : String × String) (read : String × Json) :
    Prop where
  name_eq : read.1 = member.1
  spells : Spells levels member.2.toList read.2

theorem MemberSpells.spellsMember {member : String × String} {read : String × Json}
    (h : MemberSpells levels member read) :
    SpellsMember levels (ofString member.1 ++ ":" ++ member.2).toList read := by
  obtain ⟨name, json⟩ := read
  obtain ⟨rfl, hspells : Spells levels member.2.toList json⟩ := h
  have htext := SpellsMember.of_spells Literal.readable_escape member.1 blank_nil hspells
  rw [String.toList_append, String.toList_append, Literal.toList_ofString, List.append_assoc]
  exact htext

variable {members : List (String × String)}

theorem Spells.objectText {reads : List (String × Json)}
    (h : List.Forall₂ (MemberSpells levels) members reads) :
    Spells (levels + 1) (objectText members).toList (.object reads) := by
  rw [toList_objectText]
  cases h with
  | nil => exact .object_nil
  | @cons member read members reads hmember hmembers =>
    have hitems : List.Forall₂ (SpellsMember levels)
        (members.map fun m => (ofString m.1 ++ ":" ++ m.2).toList) reads := by
      rw [List.forall₂_map_left_iff]
      exact hmembers.imp fun _ _ hspells => hspells.spellsMember
    have hobject := Spells.object blank_nil blank_nil hmember.spellsMember hitems
    rw [List.nil_append, List.nil_append] at hobject
    rw [List.map_cons, intercalate_comma, List.append_assoc]
    exact hobject

/-- A text stands for a loosely typed value within an object. -/
def HasValue (text : String) (value : Value) : Prop :=
  ∃ json, Spells 9999 text.toList json ∧ json.toValue? = some value

theorem hasValue_ofString (s : String) : HasValue (ofString s) (.string s) :=
  ⟨.string s, .literal s, rfl⟩

theorem hasValue_ofStrings (ss : List String) : HasValue (ofStrings ss) (.list (ss.map .string)) :=
  ⟨.array (ss.map .string), .literals ss, by rw [toValue?, Value.toValues?_strings]; rfl⟩

/-- A member has its name, and its text has its value. -/
structure MemberHasValue (member : String × String) (pair : String × Value) : Prop where
  name_eq : pair.1 = member.1
  hasValue : HasValue member.2 pair.2

theorem exists_reads {pairs : List (String × Value)}
    (h : List.Forall₂ MemberHasValue members pairs) :
    ∃ reads, List.Forall₂ (MemberSpells 9999) members reads ∧ toPairs? reads = some pairs := by
  induction h with
  | nil => exact ⟨[], .nil, rfl⟩
  | @cons member pair members pairs hmember hmembers ih =>
    obtain ⟨name, value⟩ := pair
    obtain ⟨rfl, json, hspells, hvalue⟩ := hmember
    obtain ⟨reads, hreads, hpairs⟩ := ih
    refine ⟨(member.1, json) :: reads, .cons ⟨rfl, hspells⟩ hreads, ?_⟩
    rw [toPairs?, hvalue, hpairs]

end Json

/-! ## Entries of objects -/

namespace Entries

open Json

variable {members : List (String × String)} {pairs : List (String × Value)}

/-- The entries of a compact object are its members; the last of a name counts. -/
theorem decode_objectText (h : List.Forall₂ MemberHasValue members pairs) :
    decode .json (objectText members) = .ok (ofList pairs) := by
  obtain ⟨reads, hreads, hpairs⟩ := exists_reads h
  have htext : Json.ofText? (objectText members).toList = some (.object reads) :=
    Spells.ofText? (.objectText hreads)
  have hentries : entriesOfText? (objectText members) = some (ofList pairs) := by
    simp only [entriesOfText?, htext, Option.bind_eq_bind, Option.bind_some, hpairs,
      Option.map_some]
  rw [decode, hentries]
  rfl

theorem exists_pairs (h : ∀ m ∈ members, ∃ v, HasValue m.2 v) :
    ∃ pairs, List.Forall₂ MemberHasValue members pairs := by
  induction members with
  | nil => exact ⟨[], .nil⟩
  | cons m members ih =>
    obtain ⟨⟨v, hv⟩, hmembers⟩ := List.forall_mem_cons.1 h
    obtain ⟨pairs, hpairs⟩ := ih hmembers
    exact ⟨(m.1, v) :: pairs, .cons ⟨rfl, hv⟩ hpairs⟩

/-- A member is found under its name if no later one has the name as well. -/
theorem exists_decode_objectText {before after : List (String × String)} {key text : String}
    {value : Value} (hothers : ∀ m ∈ before ++ after, ∃ v, HasValue m.2 v)
    (hvalue : HasValue text value) (hlast : key ∉ after.map (·.1)) :
    ∃ entries, decode .json (objectText (before ++ (key, text) :: after)) = .ok entries ∧
      entries.get? key = some value := by
  rw [List.forall_mem_append] at hothers
  obtain ⟨front, hfront⟩ := exists_pairs hothers.1
  obtain ⟨back, hback⟩ := exists_pairs hothers.2
  have hnames : back.map (·.1) = after.map (·.1) := by
    clear hlast hothers
    induction hback with
    | nil => rfl
    | cons hpair _ ih => rw [List.map_cons, List.map_cons, hpair.name_eq, ih]
  refine ⟨ofList (front ++ (key, value) :: back), ?_, get?_ofList_append (hnames ▸ hlast)⟩
  exact decode_objectText (List.rel_append hfront (.cons ⟨rfl, hvalue⟩ hback))

end Entries

namespace Literal

/-- **Literals delimit themselves.** A literal is read back whatever follows it, and it has no control
    character and no separator of lines. So objects that are put together from literals are read as
    what was put in: a single text under its name, and a list of texts among any other members. -/
theorem ofString_delimits_itself :
    (∀ (s : String) (rest : List Char),
      read? ((ofString s).toList ++ rest) = some (s.toList, rest) ∧
      Json.read? ((ofString s).toList ++ rest) = some (.string s, rest)) ∧
    (∀ s : String, ∀ c ∈ (ofString s).toList,
      0x20 ≤ c.toNat ∧ c.toNat ≠ 0x2028 ∧ c.toNat ≠ 0x2029) ∧
    (∀ key s : String,
      Entries.decode .json ("\x7b" ++ ofString key ++ ":" ++ ofString s ++ "\x7d") =
        .ok [(key, .string s)]) ∧
    ∀ (before after : List (String × String)) (key : String) (ss : List String),
      (∀ m ∈ before ++ after, ∃ v, Json.HasValue m.2 v) → key ∉ after.map (·.1) →
      ∃ entries,
        Entries.decode .json (Json.objectText (before ++ (key, ofStrings ss) :: after)) =
          .ok entries ∧
        ∀ default, entries.strings? key default = some ss := by
  refine ⟨fun s rest => ⟨?_, ?_⟩, fun s => ?_, fun key s => ?_,
    fun before after key ss hothers hlast => ?_⟩
  · rw [toList_ofString]
    exact readable_escape.read? s.toList rest
  · rw [toList_ofString]
    exact Json.value?_writeWith readable_escape s rest
  · intro c hc
    rw [toList_ofString] at hc
    exact isInLine_iff.1 (List.all_eq_true.1 (all_isInLine_write s.toList) c hc)
  · have htext : "\x7b" ++ ofString key ++ ":" ++ ofString s ++ "\x7d" =
        Json.objectText [(key, ofString s)] := by
      simp only [Json.objectText, List.map_cons, List.map_nil, String.intercalate_singleton,
        String.append_assoc]
    have hmember : List.Forall₂ Json.MemberHasValue [(key, ofString s)] [(key, .string s)] :=
      .cons ⟨rfl, Json.hasValue_ofString s⟩ .nil
    rw [htext, Entries.decode_objectText hmember]
    rfl
  · obtain ⟨entries, hdecode, hentry⟩ :=
      Entries.exists_decode_objectText hothers (Json.hasValue_ofStrings ss) hlast
    refine ⟨entries, hdecode, fun default => ?_⟩
    have hstrings : (Value.list (ss.map .string)).asStrings? = some ss :=
      Value.transparent_viaJson.strings ss
    rw [Entries.strings?, hentry, Option.bind_some, hstrings]
    rfl

/-- An earlier list under the same name does not count, and neither do brackets within texts. -/
theorem ofStrings_among_members :
    (∀ m ∈ [("tags", ofStrings ["old"])] ++ [("note", ofString "]")],
      ∃ v, Json.HasValue m.2 v) ∧
    "tags" ∉ [("note", ofString "]")].map (·.1) ∧
    ∃ entries,
      Entries.decode .json (Json.objectText ([("tags", ofStrings ["old"])] ++
        ("tags", ofStrings ["a\\", "\""]) :: [("note", ofString "]")])) = .ok entries ∧
      ∀ default, entries.strings? "tags" default = some ["a\\", "\""] := by
  have hothers : ∀ m ∈ [("tags", ofStrings ["old"])] ++ [("note", ofString "]")],
      ∃ v, Json.HasValue m.2 v :=
    List.forall_mem_append.2 ⟨List.forall_mem_singleton.2 ⟨_, Json.hasValue_ofStrings ["old"]⟩,
      List.forall_mem_singleton.2 ⟨_, Json.hasValue_ofString "]"⟩⟩
  have hlast : "tags" ∉ [("note", ofString "]")].map (·.1) := by
    rw [List.map_singleton, List.mem_singleton]
    decide
  exact ⟨hothers, hlast, ofString_delimits_itself.2.2.2 _ _ _ _ hothers hlast⟩

end Literal

end TradeFlow
