import Mathlib.Data.List.Forall2
import TradeFlow.Proofs.Json.Spells

/-!
Texts of layouts are read back.

A layout is written with line breaks and indentation, which are blanks, so its text spells a value at
any depth if the texts of its parts do. What is proved:

1. `readable_escape`: the escapes of JSON strings are readable.
2. `ReadAs.string`, `ReadAs.int`, `ReadAs.float`, `ReadAs.bool`: atoms are read back.
3. `ReadAs.array` and `ReadAs.object`: collections are read back if their parts are.
4. `ReadAs.read?`: a text that can be read back is read up to its end.
-/

namespace TradeFlow

namespace JsonLayout

theorem readable_escape : Literal.Readable escape := by
  intro c rest
  rw [escape]
  split
  · next h =>
    refine Literal.readInside?_hex (Literal.hexText?_hexDigits (.inl ?_))
    rcases h with rfl | rfl | rfl <;> decide
  · exact Literal.readable_escape c rest

theorem toList_stringText (s : String) :
    (stringText s).toList = Literal.writeWith escape (repaired s).toList := String.toList_ofList

end JsonLayout

namespace Json

open JsonLayout

variable {levels : Nat}

theorem toList_newline (depth : Nat) :
    (newline depth).toList = '\n' :: List.replicate (2 * depth) ' ' := by
  rw [newline, String.toList_append]
  exact congrArg ('\n' :: ·) String.toList_ofList

theorem blank_newline (depth : Nat) : Blank (newline depth).toList := by
  intro c hc
  rw [toList_newline] at hc
  rcases List.mem_cons.1 hc with rfl | hc
  · rfl
  · rw [List.eq_of_mem_replicate hc]
    rfl

/-! ## Values that are read back -/

/-- The text of a layout is read as a value, at any depth and whatever follows. -/
structure ReadAs (levels : Nat) (l : JsonLayout) (json : Json) : Prop where
  starts (depth : Nat) :
    ∃ c tail, (l.text depth).toList = c :: tail ∧ isSpace c = false ∧ c ≠ ']'
  value?_append (depth fuel : Nat) (rest : List Char) :
    (l.text depth).toList.length ≤ fuel → EndsNumber rest →
      value? levels fuel ((l.text depth).toList ++ rest) = some (json, rest)

theorem ReadAs.of_spells {l : JsonLayout} {json : Json}
    (h : ∀ depth, Spells levels (l.text depth).toList json) : ReadAs levels l json :=
  ⟨fun depth => (h depth).starts, fun depth => (h depth).value?_append⟩

theorem ReadAs.spells {l : JsonLayout} {json : Json} (h : ReadAs levels l json) (depth : Nat) :
    Spells levels (l.text depth).toList json :=
  ⟨h.starts depth, h.value?_append depth⟩

/-- Atoms are written alike at any depth. -/
theorem ReadAs.atom {s : String} {json : Json} (h : Spells levels s.toList json) :
    ReadAs levels (.atom s) json :=
  .of_spells fun depth => by rwa [JsonLayout.text]

theorem ReadAs.null : ReadAs levels (.atom "null") .null :=
  .atom (.atom rfl (by decide) fun _ _ _ => rfl)

theorem ReadAs.bool (b : Bool) : ReadAs levels (JsonLayout.bool b) (.bool b) := by
  cases b with
  | true => exact .atom (.atom rfl (by decide) fun _ _ _ => rfl)
  | false => exact .atom (.atom rfl (by decide) fun _ _ _ => rfl)

theorem ReadAs.string (s : String) :
    ReadAs levels (JsonLayout.string s) (.string (repaired s)) := by
  apply ReadAs.atom
  rw [toList_stringText]
  exact .string readable_escape (repaired s)

theorem ReadAs.number {s : String} {spelling : Spelling} {negative : Bool}
    (hs : s.toList = signText negative ++ spelling.text) :
    ReadAs levels (.atom s) (.number (spelling.number negative)) := by
  apply ReadAs.atom
  rw [hs]
  exact .number spelling negative

theorem ReadAs.int (i : Int) : ReadAs levels (JsonLayout.int i) (.number (intNumber i)) := by
  have hread : ReadAs levels _ _ := ReadAs.number (toList_intText i)
  rwa [Spelling.number_ofNat] at hread

theorem ReadAs.float {x : Binary64} (h : x.isFinite = true) :
    ReadAs levels (.atom (NumberFormat.object.text x)) (.number (doubleNumber x)) := by
  obtain ⟨spelling, negative, htext, hnumber, -⟩ := exists_double h
  rw [← hnumber]
  exact .number htext

/-! ## Collections -/

variable {items : List JsonLayout} {members : List (String × JsonLayout)}

theorem toList_itemsText (depth : Nat) (items : List JsonLayout) :
    (itemsText depth items).toList =
      moreText (newline depth).toList (items.map fun item => (item.text depth).toList) := by
  induction items with
  | nil => rfl
  | cons item items ih =>
    rw [List.map_cons, moreText_cons, ← ih]
    simp only [itemsText, String.toList_append, List.append_assoc]
    rfl

theorem toList_text_array (depth : Nat) (item : JsonLayout) (items : List JsonLayout) :
    (JsonLayout.text depth (.array (item :: items))).toList =
      '[' :: ((newline (depth + 1)).toList ++ ((item.text (depth + 1)).toList
        ++ (moreText (newline (depth + 1)).toList
            (items.map fun item => (item.text (depth + 1)).toList)
          ++ ((newline depth).toList ++ [']'])))) := by
  simp only [JsonLayout.text, String.toList_append, List.append_assoc, ← toList_itemsText]
  rfl

/-- An array is read back if its items are. -/
theorem ReadAs.array {jsons : List Json} (h : List.Forall₂ (ReadAs levels) items jsons) :
    ReadAs (levels + 1) (.array items) (.array jsons) := by
  apply ReadAs.of_spells
  intro depth
  cases h with
  | nil =>
    rw [JsonLayout.text]
    exact .array_nil
  | @cons item json items jsons hitem hitems =>
    rw [toList_text_array]
    apply Spells.array (blank_newline _) (blank_newline _) (hitem.spells (depth + 1))
    rw [List.forall₂_map_left_iff]
    exact hitems.imp fun _ _ hread => hread.spells (depth + 1)

/-! ## Objects -/

/-- A member is read under its repaired name. -/
structure MemberReadAs (levels : Nat) (member : String × JsonLayout) (read : String × Json) :
    Prop where
  name_eq : read.1 = repaired member.1
  readAs : ReadAs levels member.2 read.2

theorem MemberReadAs.spells {member : String × JsonLayout} {read : String × Json}
    (h : MemberReadAs levels member read) (depth : Nat) :
    SpellsMember levels ((keyText member.1).toList ++ (member.2.text depth).toList) read := by
  obtain ⟨name, json⟩ := read
  obtain ⟨rfl, hread : ReadAs levels member.2 json⟩ := h
  have hblank : Blank [' '] := List.forall_mem_singleton.2 rfl
  have htext := SpellsMember.of_spells readable_escape (repaired member.1) hblank (hread.spells depth)
  rw [keyText, String.toList_append, toList_stringText, List.append_assoc]
  exact htext

theorem toList_membersText (depth : Nat) (members : List (String × JsonLayout)) :
    (membersText depth members).toList =
      moreText (newline depth).toList
        (members.map fun m => (keyText m.1).toList ++ (m.2.text depth).toList) := by
  induction members with
  | nil => rfl
  | cons m members ih =>
    rw [List.map_cons, moreText_cons, ← ih]
    simp only [membersText, String.toList_append, List.append_assoc]
    rfl

theorem toList_text_object (depth : Nat) (m : String × JsonLayout)
    (members : List (String × JsonLayout)) :
    (JsonLayout.text depth (.object (m :: members))).toList =
      '\x7b' :: ((newline (depth + 1)).toList
        ++ (((keyText m.1).toList ++ (m.2.text (depth + 1)).toList)
          ++ (moreText (newline (depth + 1)).toList
              (members.map fun m => (keyText m.1).toList ++ (m.2.text (depth + 1)).toList)
            ++ ((newline depth).toList ++ ['\x7d'])))) := by
  simp only [JsonLayout.text, String.toList_append, List.append_assoc, ← toList_membersText]
  rfl

/-- An object is read back if its members are. -/
theorem ReadAs.object {jsons : List (String × Json)}
    (h : List.Forall₂ (MemberReadAs levels) members jsons) :
    ReadAs (levels + 1) (.object members) (.object jsons) := by
  apply ReadAs.of_spells
  intro depth
  cases h with
  | nil =>
    rw [JsonLayout.text]
    exact .object_nil
  | @cons member read members jsons hmember hmembers =>
    rw [toList_text_object]
    apply Spells.object (blank_newline _) (blank_newline _) (hmember.spells (depth + 1))
    rw [List.forall₂_map_left_iff]
    exact hmembers.imp fun _ _ hread => hread.spells (depth + 1)

/-- A text that can be read back is read up to its end. -/
theorem ReadAs.read? {l : JsonLayout} {json : Json} (h : ReadAs maxLevels l json) (depth : Nat)
    {rest : List Char} (hrest : EndsNumber rest) :
    read? ((l.text depth).toList ++ rest) = some (json, rest) :=
  (h.spells depth).read? hrest

end Json

end TradeFlow
