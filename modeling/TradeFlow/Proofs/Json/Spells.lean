import Mathlib.Data.List.DropRight
import TradeFlow.Proofs.Json.Number
import TradeFlow.Proofs.Text.Literal

/-!
Texts of values.

A text spells a value when the reader takes the value from the front of it, whatever follows. Texts
are put together with blanks where object notation allows them, so the same lemmas serve compact and
indented texts. The reader has a bound on its depth, and every second of its steps consumes a
character, so the length of a text is bound enough. What is proved:

1. `Spells.string`, `Spells.number`: how strings and numbers are spelled.
2. `Spells.array`, `Spells.object`: collections are spelled by what spells their parts.
3. `Spells.read?` and `Spells.ofText?`: a text that spells a value is read up to its end.
-/

namespace TradeFlow.Json

variable {levels fuel : Nat} {text rest gap close : List Char} {json : Json}

/-! ## Blanks -/

/-- A text of blanks. -/
def Blank (gap : List Char) : Prop := ∀ c ∈ gap, isSpace c = true

theorem blank_nil : Blank [] := fun _ hc => absurd hc List.not_mem_nil

theorem skipSpace_of_not_isSpace {c : Char} (h : isSpace c = false) :
    skipSpace (c :: rest) = c :: rest := by
  rw [skipSpace, List.dropWhile_cons, h]
  rfl

theorem skipSpace_append (h : Blank gap) (text : List Char) :
    skipSpace (gap ++ text) = skipSpace text :=
  List.dropWhile_append_of_pos h

theorem skipSpace_skipSpace (text : List Char) : skipSpace (skipSpace text) = skipSpace text :=
  List.dropWhile_idempotent isSpace text

theorem value?_skipSpace : value? levels fuel (skipSpace text) = value? levels fuel text := by
  cases fuel with
  | zero => rw [value?, value?]
  | succ fuel => rw [value?, value?, skipSpace_skipSpace]

/-- Blanks in front of a value are skipped. -/
theorem value?_blank (h : Blank gap) (text : List Char) :
    value? levels fuel (gap ++ text) = value? levels fuel text := by
  rw [← value?_skipSpace, skipSpace_append h, value?_skipSpace]

theorem elements?_blank (h : Blank gap) (text : List Char) :
    elements? levels fuel (gap ++ text) = elements? levels fuel text := by
  cases fuel with
  | zero => rw [elements?, elements?]
  | succ fuel => rw [elements?, elements?, value?_blank h]

theorem members?_blank (h : Blank gap) (text : List Char) :
    members? levels fuel (gap ++ text) = members? levels fuel text := by
  cases fuel with
  | zero => rw [members?, members?]
  | succ fuel => rw [members?, members?, skipSpace_append h]

/-- Blanks end a number. -/
theorem endsNumber_blank (h : Blank gap) (hrest : EndsNumber rest) : EndsNumber (gap ++ rest) := by
  cases gap with
  | nil => exact hrest
  | cons c gap =>
    rintro _ ⟨⟩
    have hspace := h c List.mem_cons_self
    simp only [isSpace, Bool.or_eq_true, beq_iff_eq] at hspace
    rcases hspace with ((rfl | rfl) | rfl) | rfl <;> decide

theorem endsNumber_comma (text : List Char) : EndsNumber (',' :: text) := by
  rintro _ ⟨⟩
  decide

theorem endsNumber_bracket (text : List Char) : EndsNumber (']' :: text) := by
  rintro _ ⟨⟩
  decide

theorem endsNumber_brace (text : List Char) : EndsNumber ('\x7d' :: text) := by
  rintro _ ⟨⟩
  decide

/-! ## Values -/

/-- A text is read as a value, whatever follows that cannot go on with a number. -/
structure Spells (levels : Nat) (text : List Char) (json : Json) : Prop where
  starts : ∃ c tail, text = c :: tail ∧ isSpace c = false ∧ c ≠ ']'
  value?_append (fuel : Nat) (rest : List Char) :
    text.length ≤ fuel → EndsNumber rest → value? levels fuel (text ++ rest) = some (json, rest)

/-- A step is enough to read what is no collection. -/
theorem Spells.atom {c : Char} {tail : List Char} (hspace : isSpace c = false) (hbracket : c ≠ ']')
    (h : ∀ fuel rest, EndsNumber rest →
      value? levels (fuel + 1) (c :: (tail ++ rest)) = some (json, rest)) :
    Spells levels (c :: tail) json where
  starts := ⟨c, tail, rfl, hspace, hbracket⟩
  value?_append fuel rest hfuel hrest := by
    obtain ⟨fuel, rfl⟩ := Nat.exists_eq_add_of_le' (Nat.le_of_add_left_le hfuel)
    exact h fuel rest hrest

theorem Spells.length_pos (h : Spells levels text json) : 0 < text.length := by
  obtain ⟨c, tail, rfl, -, -⟩ := h.starts
  exact Nat.succ_pos _

theorem Spells.skipSpace_append (h : Spells levels text json) (rest : List Char) :
    skipSpace (text ++ rest) = text ++ rest := by
  obtain ⟨c, tail, rfl, hspace, -⟩ := h.starts
  exact skipSpace_of_not_isSpace hspace

/-! ## Strings -/

variable {escapeChar : Char → List Char}

/-- A string is read up to its closing quote, whatever follows. -/
theorem value?_writeWith (hescape : Literal.Readable escapeChar) (s : String) (rest : List Char) :
    value? levels (fuel + 1) (Literal.writeWith escapeChar s.toList ++ rest) =
      some (.string s, rest) := by
  have hread := hescape.readInside? s.toList rest
  show value? levels (fuel + 1) ('"' :: (s.toList.flatMap escapeChar ++ ['"'] ++ rest)) = _
  rw [List.append_assoc, List.singleton_append, value?, skipSpace_of_not_isSpace rfl]
  simp only [hread, Option.map_some, String.ofList_toList]

theorem Spells.string (hescape : Literal.Readable escapeChar) (s : String) :
    Spells levels (Literal.writeWith escapeChar s.toList) (.string s) :=
  .atom rfl (by decide) fun _ rest _ => value?_writeWith hescape s rest

/-! ## Numbers -/

/-- The sign or the first digit of a number. -/
def StartsNumber (c : Char) : Prop := c = '-' ∨ c.isDigit = true

theorem StartsNumber.ne {c d : Char} (h : StartsNumber c) (hminus : d ≠ '-')
    (hdigit : d.isDigit = false) : c ≠ d := by
  rintro rfl
  rcases h with h | h
  · exact hminus h
  · rw [hdigit] at h
    cases h

theorem StartsNumber.not_isSpace {c : Char} (h : StartsNumber c) : isSpace c = false := by
  have hspace : c ≠ ' ' := h.ne (by decide) rfl
  have htab : c ≠ '\t' := h.ne (by decide) rfl
  have hnewline : c ≠ '\n' := h.ne (by decide) rfl
  have hreturn : c ≠ '\r' := h.ne (by decide) rfl
  simp [isSpace, hspace, htab, hnewline, hreturn]

theorem value?_number {c : Char} {tail : List Char} (h : StartsNumber c) :
    value? levels (fuel + 1) (c :: tail) =
      (number? (c :: tail)).map fun (n, rest) => (.number n, rest) := by
  have hother {d : Char} {a b : List Char} (heq : c :: a = d :: b) (hminus : d ≠ '-')
      (hdigit : d.isDigit = false) : False := h.ne hminus hdigit (List.cons.inj heq).1
  rw [value?, skipSpace_of_not_isSpace h.not_isSpace]
  split
  · next heq => exact (hother heq (by decide) rfl).elim
  · next heq => exact (hother heq (by decide) rfl).elim
  · next heq => exact (hother heq (by decide) rfl).elim
  · next heq => exact (hother heq (by decide) rfl).elim
  · next heq => exact (hother heq (by decide) rfl).elim
  · next heq => exact (hother heq (by decide) rfl).elim
  · rfl

theorem Spells.number (spelling : Spelling) (negative : Bool) :
    Spells levels (signText negative ++ spelling.text) (.number (spelling.number negative)) := by
  obtain ⟨c, tail, hc, htext⟩ : ∃ c tail, StartsNumber c ∧
      signText negative ++ spelling.text = c :: tail := by
    obtain ⟨c, tail, hc, hinteger⟩ := spelling.isInteger.exists_cons
    cases negative with
    | true => exact ⟨'-', spelling.text, .inl rfl, rfl⟩
    | false => exact ⟨c, _, .inr hc, by rw [Spelling.text, hinteger]; rfl⟩
  rw [htext]
  refine .atom hc.not_isSpace (hc.ne (by decide) rfl) fun fuel rest hrest => ?_
  rw [value?_number hc, ← List.cons_append, ← htext, number?_spelled _ _ hrest]
  rfl

/-! ## Arrays -/

/-- The parts of a collection after the first. -/
def moreText (gap : List Char) (parts : List (List Char)) : List Char :=
  parts.flatMap fun part => ',' :: (gap ++ part)

theorem moreText_cons (gap part : List Char) (parts : List (List Char)) :
    moreText gap (part :: parts) = ',' :: (gap ++ (part ++ moreText gap parts)) := by
  rw [moreText, List.flatMap_cons, List.cons_append, List.append_assoc]
  rfl

theorem intercalate_comma (part : List Char) (parts : List (List Char)) :
    [','].intercalate (part :: parts) = part ++ moreText [] parts := by
  induction parts generalizing part with
  | nil => rw [List.intercalate_singleton, moreText, List.flatMap_nil, List.append_nil]
  | cons next parts ih =>
    rw [List.intercalate_cons_cons, ih, List.append_assoc]
    rfl

variable {item : List Char} {items : List (List Char)} {jsons : List Json}

/-- The items of an array are read up to its closing bracket. -/
theorem elements?_append (hgap : Blank gap) (hclose : Blank close) (hitem : Spells levels item json)
    (hitems : List.Forall₂ (Spells levels) items jsons)
    (hfuel : item.length + (moreText gap items).length < fuel) :
    elements? levels fuel (item ++ (moreText gap items ++ (close ++ ']' :: rest))) =
      some (json :: jsons, rest) := by
  induction hitems generalizing item json fuel with
  | nil =>
    obtain ⟨fuel, rfl⟩ := Nat.exists_eq_add_of_le' (Nat.one_le_of_lt hfuel)
    have hend : EndsNumber (close ++ ']' :: rest) :=
      endsNumber_blank hclose (endsNumber_bracket rest)
    rw [moreText, List.flatMap_nil, List.nil_append, elements?,
      hitem.value?_append fuel _ (by omega) hend]
    simp only [skipSpace_append hclose, skipSpace_of_not_isSpace (c := ']') rfl]
  | @cons next nextJson items jsons hnext hitems ih =>
    obtain ⟨fuel, rfl⟩ := Nat.exists_eq_add_of_le' (Nat.one_le_of_lt hfuel)
    -- the item and the comma behind it pay for this step
    have hpos := hitem.length_pos
    rw [moreText_cons] at hfuel ⊢
    simp only [List.length_cons, List.length_append] at hfuel
    rw [List.cons_append, elements?, hitem.value?_append fuel _ (by omega) (endsNumber_comma _)]
    simp only [skipSpace_of_not_isSpace (c := ',') rfl, List.append_assoc, elements?_blank hgap]
    rw [ih hnext (by omega)]
    rfl

theorem value?_array {after inside : List Char} (hafter : skipSpace after = inside)
    (hinside : inside.head? ≠ some ']') :
    value? (levels + 1) (fuel + 1) ('[' :: after) =
      (elements? levels fuel inside).map fun (items, rest) => (.array items, rest) := by
  rw [value?, skipSpace_of_not_isSpace rfl]
  simp only [hafter]
  split
  · next heq => cases heq
  · exact absurd rfl hinside
  · next hlevels _ =>
    cases hlevels
    rfl

theorem Spells.array_nil : Spells (levels + 1) ['[', ']'] (.array []) :=
  .atom rfl (by decide) fun _ _ _ => rfl

theorem Spells.array (hgap : Blank gap) (hclose : Blank close) (hitem : Spells levels item json)
    (hitems : List.Forall₂ (Spells levels) items jsons) :
    Spells (levels + 1) ('[' :: (gap ++ (item ++ (moreText gap items ++ (close ++ [']'])))))
      (.array (json :: jsons)) where
  starts := ⟨'[', _, rfl, rfl, by decide⟩
  value?_append fuel rest hfuel _ := by
    simp only [List.length_cons, List.length_append] at hfuel
    obtain ⟨fuel, rfl⟩ := Nat.exists_eq_add_of_le' (Nat.le_of_add_left_le hfuel)
    have hspace (more : List Char) : skipSpace (gap ++ (item ++ more)) = item ++ more := by
      rw [Json.skipSpace_append hgap, hitem.skipSpace_append]
    have hhead (more : List Char) : (item ++ more).head? ≠ some ']' := by
      obtain ⟨c, tail, rfl, -, hbracket⟩ := hitem.starts
      exact fun heq => hbracket (Option.some.inj heq)
    simp only [List.cons_append, List.append_assoc, List.nil_append]
    rw [value?_array (hspace _) (hhead _), elements?_append hgap hclose hitem hitems (by omega)]
    rfl

/-! ## Objects -/

/-- A text is read as a member of an object, in front of another member or of the closing brace. -/
structure SpellsMember (levels : Nat) (text : List Char) (member : String × Json) : Prop where
  starts : ∃ tail, text = '"' :: tail
  members?_comma {fuel : Nat} {rest more : List Char} : text.length ≤ fuel → EndsNumber rest →
    skipSpace rest = ',' :: more →
      members? levels (fuel + 1) (text ++ rest) =
        (members? levels fuel more).map fun (members, after) => (member :: members, after)
  members?_brace {fuel : Nat} {rest more : List Char} : text.length ≤ fuel → EndsNumber rest →
    skipSpace rest = '\x7d' :: more →
      members? levels (fuel + 1) (text ++ rest) = some ([member], more)

/-- The name of a member and its colon are read, whatever way of escaping is used. -/
theorem read?_name (hescape : Literal.Readable escapeChar) (name : String) (rest : List Char) :
    Literal.read? (skipSpace (Literal.writeWith escapeChar name.toList ++ ':' :: rest)) =
      some (name.toList, ':' :: rest) := by
  have hspace : skipSpace (Literal.writeWith escapeChar name.toList ++ ':' :: rest) =
      Literal.writeWith escapeChar name.toList ++ ':' :: rest := skipSpace_of_not_isSpace rfl
  rw [hspace]
  exact hescape.read? name.toList (':' :: rest)

/-- A member is spelled by its name, however it is escaped, and what spells its value. -/
theorem SpellsMember.of_spells (hescape : Literal.Readable escapeChar) (name : String)
    (hgap : Blank gap) (h : Spells levels text json) :
    SpellsMember levels (Literal.writeWith escapeChar name.toList ++ ':' :: (gap ++ text))
      (name, json) where
  starts := ⟨_, rfl⟩
  members?_comma {fuel rest more} hfuel hrest hmore := by
    simp only [List.length_append, List.length_cons] at hfuel
    have hvalue := h.value?_append fuel rest (by omega) hrest
    rw [List.append_assoc, List.cons_append, List.append_assoc, members?, read?_name hescape]
    simp only [skipSpace_of_not_isSpace (c := ':') rfl, value?_blank hgap, hvalue, hmore,
      String.ofList_toList]
  members?_brace {fuel rest more} hfuel hrest hmore := by
    simp only [List.length_append, List.length_cons] at hfuel
    have hvalue := h.value?_append fuel rest (by omega) hrest
    rw [List.append_assoc, List.cons_append, List.append_assoc, members?, read?_name hescape]
    simp only [skipSpace_of_not_isSpace (c := ':') rfl, value?_blank hgap, hvalue, hmore,
      String.ofList_toList]

theorem SpellsMember.length_pos {member : String × Json} (h : SpellsMember levels text member) :
    0 < text.length := by
  obtain ⟨tail, rfl⟩ := h.starts
  exact Nat.succ_pos _

theorem SpellsMember.skipSpace_append {member : String × Json} (h : SpellsMember levels text member)
    (rest : List Char) : skipSpace (text ++ rest) = text ++ rest := by
  obtain ⟨tail, rfl⟩ := h.starts
  exact skipSpace_of_not_isSpace rfl

variable {member : String × Json} {members : List (String × Json)}

/-- The members of an object are read up to its closing brace. -/
theorem members?_append (hgap : Blank gap) (hclose : Blank close)
    (hitem : SpellsMember levels item member)
    (hitems : List.Forall₂ (SpellsMember levels) items members)
    (hfuel : item.length + (moreText gap items).length < fuel) :
    members? levels fuel (item ++ (moreText gap items ++ (close ++ '\x7d' :: rest))) =
      some (member :: members, rest) := by
  induction hitems generalizing item member fuel with
  | nil =>
    obtain ⟨fuel, rfl⟩ := Nat.exists_eq_add_of_le' (Nat.one_le_of_lt hfuel)
    have hend : EndsNumber (close ++ '\x7d' :: rest) :=
      endsNumber_blank hclose (endsNumber_brace rest)
    have hbrace : skipSpace (close ++ '\x7d' :: rest) = '\x7d' :: rest :=
      (skipSpace_append hclose _).trans (skipSpace_of_not_isSpace rfl)
    rw [moreText, List.flatMap_nil, List.nil_append, hitem.members?_brace (by omega) hend hbrace]
  | @cons next nextMember items members hnext hitems ih =>
    obtain ⟨fuel, rfl⟩ := Nat.exists_eq_add_of_le' (Nat.one_le_of_lt hfuel)
    rw [moreText_cons] at hfuel ⊢
    simp only [List.length_cons, List.length_append] at hfuel
    have hpos := hitem.length_pos
    rw [List.cons_append, hitem.members?_comma (by omega) (endsNumber_comma _)
      (skipSpace_of_not_isSpace rfl), List.append_assoc, List.append_assoc, members?_blank hgap,
      ih hnext (by omega)]
    rfl

theorem value?_object {after inside : List Char} (hafter : skipSpace after = inside)
    (hinside : inside.head? ≠ some '\x7d') :
    value? (levels + 1) (fuel + 1) ('\x7b' :: after) =
      (members? levels fuel inside).map fun (members, rest) => (.object members, rest) := by
  rw [value?, skipSpace_of_not_isSpace rfl]
  simp only [hafter]
  split
  · next heq => cases heq
  · exact absurd rfl hinside
  · next hlevels _ =>
    cases hlevels
    rfl

theorem Spells.object_nil : Spells (levels + 1) ['\x7b', '\x7d'] (.object []) :=
  .atom rfl (by decide) fun _ _ _ => rfl

theorem Spells.object (hgap : Blank gap) (hclose : Blank close)
    (hitem : SpellsMember levels item member)
    (hitems : List.Forall₂ (SpellsMember levels) items members) :
    Spells (levels + 1) ('\x7b' :: (gap ++ (item ++ (moreText gap items ++ (close ++ ['\x7d'])))))
      (.object (member :: members)) where
  starts := ⟨'\x7b', _, rfl, rfl, by decide⟩
  value?_append fuel rest hfuel _ := by
    simp only [List.length_cons, List.length_append] at hfuel
    obtain ⟨fuel, rfl⟩ := Nat.exists_eq_add_of_le' (Nat.le_of_add_left_le hfuel)
    have hspace (more : List Char) : skipSpace (gap ++ (item ++ more)) = item ++ more := by
      rw [Json.skipSpace_append hgap, hitem.skipSpace_append]
    have hhead (more : List Char) : (item ++ more).head? ≠ some '\x7d' := by
      obtain ⟨tail, rfl⟩ := hitem.starts
      exact fun heq => nomatch Option.some.inj heq
    simp only [List.cons_append, List.append_assoc, List.nil_append]
    rw [value?_object (hspace _) (hhead _), members?_append hgap hclose hitem hitems (by omega)]
    rfl

/-! ## Whole texts -/

theorem Spells.read? (h : Spells maxLevels text json) (hrest : EndsNumber rest) :
    read? (text ++ rest) = some (json, rest) := by
  refine h.value?_append _ rest ?_ hrest
  rw [List.length_append]
  omega

theorem Spells.ofText? (h : Spells maxLevels text json) : ofText? text = some json := by
  have hread : Json.read? (text ++ []) = some (json, []) := h.read? nofun
  rw [List.append_nil] at hread
  rw [Json.ofText?, hread]
  rfl

end TradeFlow.Json
