import TradeFlow.Template

/-!
Expanding templates is simultaneous substitution.

What a placeholder is, is said of the text alone (`Occurs`), without the scan that finds them. What
is proved:

1. `Occurs.eq_or_apart`: two placeholders of one text are the same one, or one ends before the other
   starts.
2. `splits_pieces` and `Splits.unique`: the scan from the left cuts a text at its placeholders and
   nowhere else, which can be done in one way.
3. `expand_substitutes`: an expansion puts the values in place of the placeholders that have one and
   leaves every other character where it is, and it reports the names of the other placeholders.
-/

namespace TradeFlow.Template

/-- Whether a placeholder can have a name. -/
def isName : List Char → Bool
  | [] => false
  | c :: rest => isNameStart c && rest.all isNameChar

/-- A placeholder stands in a text, behind what comes before it and in front of what comes after. -/
structure Occurs (text before name after : List Char) : Prop where
  text_eq : text = before ++ (holeText name ++ after)
  isName : isName name = true

namespace Piece

/-- How a template spells a piece. -/
def spelling : Piece → List Char
  | .text c => [c]
  | .hole name => holeText name

/-- The name of a placeholder. -/
def holeName? : Piece → Option String
  | .text _ => none
  | .hole name => some (String.ofList name)

/-- What comes in place of a piece: the value of its name, or the piece as it is spelled. -/
def substituted (values : String → Option String) (p : Piece) : List Char :=
  ((p.holeName?.bind values).map String.toList).getD p.spelling

theorem spelling_ne_nil (p : Piece) : p.spelling ≠ [] := by
  cases p <;> simp [spelling, holeText]

/-- Whether a piece is read back as it was spelled, whatever stands after it. -/
def isPlain : Piece → Bool
  | .text c => c != '$'
  | .hole name => isName name

end Piece

variable {text before before' name name' after after' rest : List Char} {ps : List Piece}

/-! ## Names -/

theorem isNameChar_of_isNameStart {c : Char} (h : isNameStart c = true) : isNameChar c = true := by
  rw [isNameStart, Bool.or_eq_true] at h
  rw [isNameChar, Char.isAlphanum, Bool.or_assoc, Bool.or_eq_true, Bool.or_eq_true]
  exact h.imp_right Or.inr

theorem isNameChar_of_mem (h : isName name = true) : ∀ c ∈ name, isNameChar c = true := by
  cases name with
  | nil => cases h
  | cons first others =>
    obtain ⟨hstart, hothers⟩ := Bool.and_eq_true_iff.1 h
    intro c hc
    rcases List.mem_cons.1 hc with rfl | hc
    · exact isNameChar_of_isNameStart hstart
    · exact List.all_eq_true.1 hothers c hc

theorem name?_append (h : isName name = true) (rest : List Char) :
    name? (name ++ '\x7d' :: rest) = some (name, rest) := by
  cases name with
  | nil => cases h
  | cons c cs =>
    obtain ⟨hstart, hchars⟩ := Bool.and_eq_true_iff.1 h
    have hall : ∀ d ∈ cs, isNameChar d = true := List.all_eq_true.1 hchars
    have hbrace : isNameChar '\x7d' = false := by decide
    simp [name?, hstart, List.dropWhile_append_of_pos hall, List.takeWhile_append_of_pos hall,
      hbrace]

/-- A name is read exactly where one stands with the brace that closes it. -/
theorem name?_eq_some_iff :
    name? text = some (name, after) ↔ isName name = true ∧ text = name ++ '\x7d' :: after := by
  constructor
  · intro h
    cases text with
    | nil => cases h
    | cons c rest =>
      rw [name?] at h
      split at h
      · next hstart =>
        split at h
        · next after' hdrop =>
          cases h
          constructor
          · exact Bool.and_eq_true_iff.2 ⟨hstart, List.all_takeWhile⟩
          · rw [List.cons_append, ← hdrop, List.takeWhile_append_dropWhile]
        · cases h
      · cases h
  · rintro ⟨hname, rfl⟩
    exact name?_append hname after

/-! ## Placeholders -/

theorem holeText_append (name rest : List Char) :
    holeText name ++ rest = '$' :: '\x7b' :: (name ++ '\x7d' :: rest) := by
  rw [holeText, List.append_assoc, List.cons_append, List.cons_append, List.singleton_append]

/-- A placeholder has no dollar sign but its first character. -/
theorem dollar_not_mem_tail (h : isName name = true) : '$' ∉ (holeText name).tail := by
  have hdollar : isNameChar '$' = false := by decide
  have hname : '$' ∉ name := by
    intro hmem
    rw [isNameChar_of_mem h '$' hmem] at hdollar
    cases hdollar
  simp [holeText, hname]

/-- The placeholder at the front of a text is the only one that starts in front of its end. -/
theorem occurs_holeText_append_iff (h : isName name = true) :
    Occurs (holeText name ++ after) before' name' after' ↔
      (before' = [] ∧ name = name' ∧ after = after') ∨
        ∃ d, before' = holeText name ++ d ∧ Occurs after d name' after' := by
  constructor
  · rintro ⟨htext, hname'⟩
    rcases List.append_eq_append_iff.1 htext with ⟨d, rfl, hafter⟩ | ⟨bs, hhole, hbs⟩
    · exact Or.inr ⟨d, rfl, hafter, hname'⟩
    · cases before' with
      | nil =>
        -- both start at the front, where the scanner reads one name only
        rw [List.nil_append] at hhole
        rw [← hhole, holeText_append, holeText_append, List.cons.injEq, List.cons.injEq] at hbs
        have hread := name?_append h after
        rw [← hbs.2.2, name?_append hname' after'] at hread
        cases hread
        exact Or.inl ⟨rfl, rfl, rfl⟩
      | cons c inside =>
        cases bs with
        | nil =>
          rw [List.append_nil] at hhole
          exact Or.inr ⟨[], by rw [hhole, List.append_nil], hbs.symm, hname'⟩
        | cons b bs =>
          -- the second would start within the first, which has no other dollar sign
          rw [holeText_append, List.cons_append, List.cons.injEq] at hbs
          have hmem : '$' ∈ (holeText name).tail := by
            rw [hhole, ← hbs.1]
            simp
          exact absurd hmem (dollar_not_mem_tail h)
  · rintro (⟨rfl, rfl, rfl⟩ | ⟨d, rfl, hafter, hname'⟩)
    · exact ⟨rfl, h⟩
    · exact ⟨by rw [hafter, List.append_assoc], hname'⟩

/-- A placeholder at the front of a text is spelled with a dollar sign and a brace. -/
theorem not_occurs_nil {c : Char} (h : ∀ rest', c = '$' → rest ≠ '\x7b' :: rest') :
    ¬ Occurs (c :: rest) [] name after := by
  rintro ⟨htext, -⟩
  rw [List.nil_append, holeText_append, List.cons.injEq] at htext
  exact h _ htext.1 htext.2

/-- In front of a text, a character that starts no placeholder moves the others by one place. -/
theorem occurs_cons_iff {c : Char} (h : ∀ name after, ¬ Occurs (c :: rest) [] name after) :
    Occurs (c :: rest) before name after ↔
      ∃ d, before = c :: d ∧ Occurs rest d name after := by
  constructor
  · intro hocc
    cases before with
    | nil => exact absurd hocc (h name after)
    | cons b d =>
      obtain ⟨htext, hname⟩ := hocc
      rw [List.cons_append, List.cons.injEq] at htext
      exact ⟨d, by rw [htext.1], htext.2, hname⟩
  · rintro ⟨d, rfl, hrest, hname⟩
    exact ⟨by rw [hrest, List.cons_append], hname⟩

theorem Occurs.append_left (h : Occurs text before name after) (front : List Char) :
    Occurs (front ++ text) (front ++ before) name after :=
  ⟨by rw [h.text_eq, List.append_assoc], h.isName⟩

theorem Occurs.of_append_left {front : List Char}
    (h : Occurs (front ++ text) (front ++ before) name after) : Occurs text before name after := by
  have htext := h.text_eq
  rw [List.append_assoc] at htext
  exact ⟨List.append_cancel_left htext, h.isName⟩

/-- The later of two placeholders starts behind the end of the other, if they are not the same. -/
theorem Occurs.eq_or_le (h : Occurs text before name after) (h' : Occurs text before' name' after')
    (hle : before.length ≤ before'.length) :
    (before = before' ∧ name = name' ∧ after = after') ∨
      before.length + (holeText name).length ≤ before'.length := by
  obtain ⟨d, rfl⟩ : before <+: before' :=
    List.prefix_of_prefix_length_le ⟨_, h.text_eq.symm⟩ ⟨_, h'.text_eq.symm⟩ hle
  have hd : Occurs (holeText name ++ after) d name' after' := by
    rw [h.text_eq] at h'
    exact h'.of_append_left
  rcases (occurs_holeText_append_iff h.isName).1 hd with ⟨rfl, hname, hafter⟩ | ⟨e, rfl, -⟩
  · exact Or.inl ⟨(List.append_nil before).symm, hname, hafter⟩
  · right
    rw [List.length_append, List.length_append]
    omega

/-- Placeholders never overlap. -/
theorem Occurs.eq_or_apart (h : Occurs text before name after)
    (h' : Occurs text before' name' after') :
    (before = before' ∧ name = name' ∧ after = after') ∨
      before.length + (holeText name).length ≤ before'.length ∨
      before'.length + (holeText name').length ≤ before.length := by
  rcases Nat.le_total before.length before'.length with hle | hle
  · exact (h.eq_or_le h' hle).imp_right Or.inl
  · rcases h'.eq_or_le h hle with ⟨hbefore, hname, hafter⟩ | hapart
    · exact Or.inl ⟨hbefore.symm, hname.symm, hafter.symm⟩
    · exact Or.inr (Or.inr hapart)

/-! ## Cutting a text at its placeholders -/

/-- The pieces spell the text, and its placeholders are the holes among them. -/
structure Splits (text : List Char) (ps : List Piece) : Prop where
  spelled : ps.flatMap Piece.spelling = text
  occurs_iff : ∀ before name after, Occurs text before name after ↔
    ∃ l r, ps = l ++ .hole name :: r ∧
      l.flatMap Piece.spelling = before ∧ r.flatMap Piece.spelling = after

namespace Splits

theorem nil : Splits [] [] := by
  refine ⟨rfl, fun before name after => ⟨?_, ?_⟩⟩
  · rintro ⟨htext, -⟩
    rw [holeText_append] at htext
    simp at htext
  · rintro ⟨l, r, hps, -⟩
    simp at hps

/-- A piece goes in front if the placeholders of the text are its own and those behind it. -/
theorem cons {p : Piece} (hs : Splits rest ps)
    (h : ∀ before name after, Occurs (p.spelling ++ rest) before name after ↔
      (before = [] ∧ p = .hole name ∧ rest = after) ∨
        ∃ d, before = p.spelling ++ d ∧ Occurs rest d name after) :
    Splits (p.spelling ++ rest) (p :: ps) := by
  refine ⟨by rw [List.flatMap_cons, hs.spelled], fun before name after => ?_⟩
  rw [h]
  constructor
  · rintro (⟨rfl, rfl, rfl⟩ | ⟨d, rfl, hd⟩)
    · exact ⟨[], ps, rfl, rfl, hs.spelled⟩
    · obtain ⟨l, r, rfl, rfl, rfl⟩ := (hs.occurs_iff d name after).1 hd
      exact ⟨p :: l, r, rfl, List.flatMap_cons, rfl⟩
  · rintro ⟨l, r, hps, rfl, rfl⟩
    cases l with
    | nil =>
      rw [List.nil_append, List.cons.injEq] at hps
      exact Or.inl ⟨rfl, hps.1, by rw [← hs.spelled, hps.2]⟩
    | cons q l =>
      rw [List.cons_append, List.cons.injEq] at hps
      obtain ⟨rfl, hps⟩ := hps
      refine Or.inr ⟨l.flatMap Piece.spelling, List.flatMap_cons, ?_⟩
      exact (hs.occurs_iff _ _ _).2 ⟨l, r, hps, rfl, rfl⟩

theorem hole (h : isName name = true) (hs : Splits rest ps) :
    Splits (holeText name ++ rest) (.hole name :: ps) := by
  refine hs.cons (p := .hole name) fun before name' after => ?_
  rw [Piece.spelling, Piece.hole.injEq]
  exact occurs_holeText_append_iff h

theorem char {c : Char} (h : ∀ name after, ¬ Occurs (c :: rest) [] name after)
    (hs : Splits rest ps) : Splits (c :: rest) (.text c :: ps) := by
  refine hs.cons (p := .text c) fun before name after => ?_
  rw [Piece.spelling, List.singleton_append, occurs_cons_iff h]
  simp

theorem of_isPlain (h : ps.all Piece.isPlain = true) : Splits (ps.flatMap Piece.spelling) ps := by
  induction ps with
  | nil => exact nil
  | cons p ps ih =>
    obtain ⟨hp, hps⟩ := Bool.and_eq_true_iff.1 h
    rw [List.flatMap_cons]
    cases p with
    | text c =>
      apply char _ (ih hps)
      intro name after
      exact not_occurs_nil fun _ hc => absurd hc (bne_iff_ne.1 hp)
    | hole name => exact hole hp (ih hps)

theorem eq_nil (hs : Splits [] ps) : ps = [] := by
  cases ps with
  | nil => rfl
  | cons p ps =>
    have hempty := hs.spelled
    rw [List.flatMap_cons] at hempty
    exact absurd (List.append_eq_nil_iff.1 hempty).1 p.spelling_ne_nil

theorem tail {p : Piece} (hs : Splits text (p :: ps)) :
    Splits (ps.flatMap Piece.spelling) ps := by
  refine ⟨rfl, fun before name after => ?_⟩
  have htext : text = p.spelling ++ ps.flatMap Piece.spelling := by
    rw [← hs.spelled, List.flatMap_cons]
  have hmoved : Occurs (ps.flatMap Piece.spelling) before name after ↔
      Occurs text (p.spelling ++ before) name after := by
    rw [htext]
    exact ⟨fun h => h.append_left _, fun h => h.of_append_left⟩
  rw [hmoved, hs.occurs_iff]
  constructor
  · rintro ⟨l, r, hps, hl, hr⟩
    cases l with
    | nil => exact absurd (List.append_eq_nil_iff.1 hl.symm).1 p.spelling_ne_nil
    | cons q l =>
      rw [List.cons_append, List.cons.injEq] at hps
      rw [List.flatMap_cons, ← hps.1] at hl
      exact ⟨l, r, hps.2, List.append_cancel_left hl, hr⟩
  · rintro ⟨l, r, hps, rfl, hr⟩
    exact ⟨p :: l, r, by rw [hps, List.cons_append], List.flatMap_cons, hr⟩

/-- A hole at the front of one way to cut a text is at the front of any other. -/
theorem head_eq_hole {p : Piece} {ps' : List Piece} (hs : Splits text (.hole name :: ps))
    (hs' : Splits text (p :: ps')) : p = .hole name := by
  have hocc : Occurs text [] name (ps.flatMap Piece.spelling) :=
    (hs.occurs_iff _ _ _).2 ⟨[], ps, rfl, rfl, rfl⟩
  obtain ⟨l, r, hps, hl, -⟩ := (hs'.occurs_iff _ _ _).1 hocc
  cases l with
  | nil =>
    rw [List.nil_append, List.cons.injEq] at hps
    exact hps.1
  | cons q l =>
    rw [List.flatMap_cons] at hl
    exact absurd (List.append_eq_nil_iff.1 hl).1 q.spelling_ne_nil

/-- There is one way to cut a text at its placeholders. -/
theorem unique {ps' : List Piece} (hs : Splits text ps) (hs' : Splits text ps') : ps = ps' := by
  induction ps generalizing text ps' with
  | nil =>
    obtain rfl : [] = text := hs.spelled
    exact hs'.eq_nil.symm
  | cons p ps ih =>
    cases ps' with
    | nil =>
      obtain rfl : [] = text := hs'.spelled
      exact hs.eq_nil
    | cons q ps' =>
      have htexts : p.spelling ++ ps.flatMap Piece.spelling =
          q.spelling ++ ps'.flatMap Piece.spelling := by
        rw [← List.flatMap_cons, ← List.flatMap_cons, hs.spelled, hs'.spelled]
      have hpq : p = q := by
        cases p with
        | hole name => exact (hs.head_eq_hole hs').symm
        | text c =>
          cases q with
          | hole name => exact hs'.head_eq_hole hs
          | text d => rw [(List.cons.inj htexts).1]
      subst hpq
      rw [ih hs.tail (List.append_cancel_left htexts ▸ hs'.tail)]

/-- Some placeholder has a property exactly if some named piece does. -/
theorem exists_mem_holeName?_iff (hs : Splits text ps) (P : String → Prop) :
    (∃ n ∈ ps.filterMap Piece.holeName?, P n) ↔
      ∃ before name after, Occurs text before name after ∧ P (String.ofList name) := by
  constructor
  · rintro ⟨n, hn, hP⟩
    obtain ⟨p, hp, hname⟩ := List.mem_filterMap.1 hn
    cases p with
    | text c => cases hname
    | hole name =>
      cases hname
      obtain ⟨l, r, hps⟩ := List.append_of_mem hp
      exact ⟨_, name, _, (hs.occurs_iff _ _ _).2 ⟨l, r, hps, rfl, rfl⟩, hP⟩
  · rintro ⟨before, name, after, hocc, hP⟩
    obtain ⟨l, r, hps, -⟩ := (hs.occurs_iff _ _ _).1 hocc
    have hmem : Piece.hole name ∈ ps := by
      rw [hps]
      exact List.mem_append_right l List.mem_cons_self
    exact ⟨String.ofList name, List.mem_filterMap.2 ⟨.hole name, hmem, rfl⟩, hP⟩

end Splits

/-- The scan from the left cuts a text at its placeholders and nowhere else. -/
theorem splits_pieces (text : List Char) : Splits text (pieces text) := by
  fun_induction pieces text with
  | case1 => exact Splits.nil
  | case2 rest name after hname ih =>
    obtain ⟨hisName, rfl⟩ := name?_eq_some_iff.1 hname
    rw [← holeText_append]
    exact Splits.hole hisName ih
  | case3 rest hname ih =>
    apply Splits.char _ ih
    rintro name after ⟨htext, hisName⟩
    rw [List.nil_append, holeText_append, List.cons.injEq, List.cons.injEq] at htext
    rw [name?_eq_some_iff.2 ⟨hisName, htext.2.2⟩] at hname
    cases hname
  | case4 c rest hne ih => exact Splits.char (fun _ _ => not_occurs_nil hne) ih

/-- Pieces that cannot be mistaken are read back as they were spelled. -/
theorem pieces_spelling (h : ps.all Piece.isPlain = true) :
    pieces (ps.flatMap Piece.spelling) = ps :=
  (splits_pieces _).unique (Splits.of_isPlain h)

/-! ## Expansion -/

variable (values : String → Option String)

theorem fill_eq_substituted (p : Piece) : fill values p = p.substituted values := by
  cases p with
  | text c => rfl
  | hole name =>
    rw [fill, Piece.substituted, Piece.holeName?, Option.bind_some]
    cases values (String.ofList name) <;> rfl

/-- The names without a value are those of the pieces, less the ones that have a value. -/
theorem filterMap_missing? (ps : List Piece) :
    ps.filterMap (missing? values) =
      (ps.filterMap Piece.holeName?).filter fun n => (values n).isNone := by
  rw [List.filter_filterMap]
  congr 1
  funext p
  cases p with
  | text c => rfl
  | hole name =>
    rw [missing?, Piece.holeName?, Option.filter_some]
    cases values (String.ofList name) <;> rfl

/-- **Expansion is simultaneous substitution.** Placeholders never overlap. A template is cut at
    exactly its placeholders, in one way and before any value is known; an expansion is what comes in
    place of the pieces, and it reports the names without a value, one for each placeholder. -/
theorem expand_substitutes (template : String) :
    (∀ before name after before' name' after',
      Occurs template.toList before name after → Occurs template.toList before' name' after' →
        (before = before' ∧ name = name' ∧ after = after') ∨
          before.length + (holeText name).length ≤ before'.length ∨
          before'.length + (holeText name').length ≤ before.length) ∧
    ∃ ps, (∀ ps', Splits template.toList ps' ↔ ps' = ps) ∧
      ∀ values : String → Option String,
        (expand template values).1.toList = ps.flatMap (Piece.substituted values) ∧
        (expand template values).2 =
          (ps.filterMap Piece.holeName?).filter (fun n => (values n).isNone) ∧
        ((expand template values).2 ≠ [] ↔
          ∃ before name after, Occurs template.toList before name after ∧
            values (String.ofList name) = none) := by
  have hsplits := splits_pieces template.toList
  refine ⟨fun _ _ _ _ _ _ h h' => h.eq_or_apart h', pieces template.toList,
    fun ps' => ⟨fun h => h.unique hsplits, fun h => h ▸ hsplits⟩,
    fun values => ⟨?_, filterMap_missing? values _, ?_⟩⟩
  · rw [expand, String.toList_ofList]
    congr 1
    funext p
    exact fill_eq_substituted values p
  · rw [← hsplits.exists_mem_holeName?_iff fun n => values n = none, expand, filterMap_missing?,
      ne_eq, List.filter_eq_nil_iff]
    simp only [Option.isNone_iff_eq_none, Classical.not_forall, Classical.not_not, exists_prop]

example :
    expand "$\x7b$\x7ba\x7d$\x7bb\x7d" (fun n => if n = "a" then some "$\x7bb\x7d" else none) =
      ("$\x7b$\x7bb\x7d$\x7bb\x7d", ["b"]) := by cbv

/-- An opening in front of a placeholder is none itself, and a value that spells a placeholder does
    not hide that the template has one without a value. -/
theorem expand_nested :
    Occurs "$\x7b$\x7ba\x7d$\x7bb\x7d".toList "$\x7b".toList "a".toList "$\x7bb\x7d".toList ∧
    Occurs "$\x7b$\x7ba\x7d$\x7bb\x7d".toList "$\x7b$\x7ba\x7d".toList "b".toList [] ∧
    2 + (holeText "a".toList).length ≤ 6 ∧
    (expand "$\x7b$\x7ba\x7d$\x7bb\x7d"
      fun n => if n = "a" then some "$\x7bb\x7d" else none).2 ≠ [] := by
  have ha : Occurs "$\x7b$\x7ba\x7d$\x7bb\x7d".toList "$\x7b".toList "a".toList
      "$\x7bb\x7d".toList := ⟨by decide, by decide⟩
  have hb : Occurs "$\x7b$\x7ba\x7d$\x7bb\x7d".toList "$\x7b$\x7ba\x7d".toList "b".toList [] :=
    ⟨by decide, by decide⟩
  obtain ⟨hapart, _, -, hvalues⟩ := expand_substitutes "$\x7b$\x7ba\x7d$\x7bb\x7d"
  refine ⟨ha, hb, ?_, (hvalues _).2.2.2 ⟨_, _, _, hb, by decide⟩⟩
  rcases hapart _ _ _ _ _ _ ha hb with ⟨h, -⟩ | h | h
  · exact absurd h (by decide)
  · exact h
  · exact absurd h (by decide)

end TradeFlow.Template
