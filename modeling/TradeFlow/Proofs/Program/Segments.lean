import Mathlib.Data.List.Forall2
import TradeFlow.Program.Basic
import TradeFlow.Proofs.Text.Lines
import TradeFlow.Proofs.Text.Literal

/-!
Programs with places for the values of settings.

The text of a program is cut into segments: fixed text, and places at which the literal of a setting
stands. Two texts are aligned when they come from the same segments and only differ in the values of
the settings; two blocks are alike when they only differ in the values of their literals. What is
proved:

1. `Aligned.exists_segments`: aligned texts are the same segments, filled with two valuations.
2. `AlignedChars.indentChars`: indenting keeps texts aligned, since a literal is not blank and has no
   line break.
3. `Block.Alike.statements`: the statements of alike blocks are aligned.
4. `Program.aligned_closing`: so are the schedules and labels of strategies that agree on whether they
   have a name and on how many tags they have.
-/

namespace TradeFlow

/-- The values of the settings that a literal can show. -/
abbrev Values := SettingRef → Option String

/-- Fixed text, or a place for the literal of a setting. -/
inductive Segment where
  | fixed (text : String)
  | setting (ref : SettingRef)
  deriving DecidableEq, Repr

/-- The text of a segment. A setting without a value leaves its place empty. -/
def Segment.text (v : Values) : Segment → String
  | .fixed text => text
  | .setting ref =>
    match v ref with
    | some value => (TextLiteral.mk ref value).text
    | none => ""

/-- The text of a list of segments. -/
def fill (v : Values) (segments : List Segment) : String :=
  String.join (segments.map (Segment.text v))

/-! ## Literals -/

/-- A literal is one line. -/
theorem TextLiteral.newline_not_mem (l : TextLiteral) : '\n' ∉ l.text.toList := by
  intro hmem
  rw [TextLiteral.text, Literal.toList_ofString] at hmem
  have hline := List.all_eq_true.1 (Literal.all_isInLine_write _) '\n' hmem
  exact absurd hline (by decide)

/-- A literal starts with a quote. -/
theorem TextLiteral.not_blank (l : TextLiteral) (rest : List Char) :
    isBlank (l.text.toList ++ rest) = false := by
  simp only [TextLiteral.text, Literal.ofString, String.toList_ofList, Literal.write,
    Literal.writeWith, isBlank]
  rfl

/-! ## Alignment -/

section Alignment

variable (v v' : Values)

/-- Two literals of one setting, with its two values. -/
structure TextLiteral.Alike (l l' : TextLiteral) : Prop where
  setting : l.setting = l'.setting
  left : v l.setting = some l.value
  right : v' l'.setting = some l'.value

/-- Two texts that show two valuations at the same places. -/
inductive AlignedChars : List Char → List Char → Prop where
  | nil : AlignedChars [] []
  | char (c : Char) {t t' : List Char} (h : AlignedChars t t') : AlignedChars (c :: t) (c :: t')
  | literal {l l' : TextLiteral} {t t' : List Char} (hl : l.Alike v v' l')
      (h : AlignedChars t t') : AlignedChars (l.text.toList ++ t) (l'.text.toList ++ t')

def Aligned (t t' : String) : Prop := AlignedChars v v' t.toList t'.toList

end Alignment

variable {v v' : Values} {a a' b b' t t' : List Char}

theorem Segment.text_of_left {l l' : TextLiteral} (h : l.Alike v v' l') :
    (Segment.setting l.setting).text v = l.text := by
  simp only [Segment.text, h.left]

theorem Segment.text_of_right {l l' : TextLiteral} (h : l.Alike v v' l') :
    (Segment.setting l.setting).text v' = l'.text := by
  simp only [Segment.text, h.setting, h.right]

theorem toList_fill_cons (v : Values) (s : Segment) (segments : List Segment) :
    (fill v (s :: segments)).toList = (s.text v).toList ++ (fill v segments).toList := by
  simp only [fill, List.map_cons, String.toList_join, List.flatMap_cons]

/-- Aligned texts come from the same segments, and the places are of settings that have a value in
both valuations. -/
theorem AlignedChars.exists_segments (h : AlignedChars v v' t t') :
    ∃ segments : List Segment,
      (∀ ref, .setting ref ∈ segments → (v ref).isSome ∧ (v' ref).isSome) ∧
      t = (fill v segments).toList ∧ t' = (fill v' segments).toList := by
  induction h with
  | nil => exact ⟨[], by simp, rfl, rfl⟩
  | char c _ ih =>
    obtain ⟨segments, hsome, ht, ht'⟩ := ih
    refine ⟨.fixed (String.singleton c) :: segments, fun ref href => ?_, ?_, ?_⟩
    · exact hsome ref (by simpa using href)
    · rw [toList_fill_cons, ← ht, Segment.text, String.toList_singleton]
      rfl
    · rw [toList_fill_cons, ← ht', Segment.text, String.toList_singleton]
      rfl
  | @literal l l' _ _ hl _ ih =>
    obtain ⟨segments, hsome, ht, ht'⟩ := ih
    refine ⟨.setting l.setting :: segments, fun ref href => ?_, ?_, ?_⟩
    · rcases List.mem_cons.1 href with href | href
      · cases href
        rw [hl.left, hl.setting, hl.right]
        exact ⟨rfl, rfl⟩
      · exact hsome ref href
    · rw [toList_fill_cons, ← ht, Segment.text_of_left hl]
    · rw [toList_fill_cons, ← ht', Segment.text_of_right hl]

namespace AlignedChars

theorem refl (t : List Char) : AlignedChars v v' t t := by
  induction t with
  | nil => exact .nil
  | cons c t ih => exact .char c ih

theorem append (h : AlignedChars v v' a a') (h' : AlignedChars v v' b b') :
    AlignedChars v v' (a ++ b) (a' ++ b') := by
  induction h with
  | nil => exact h'
  | char c _ ih => exact .char c ih
  | literal hl _ ih =>
    rw [List.append_assoc, List.append_assoc]
    exact .literal hl ih

theorem isBlank_eq (h : AlignedChars v v' t t') : isBlank t = isBlank t' := by
  induction h with
  | nil => rfl
  | char c _ ih =>
    rw [isBlank, isBlank, List.all_cons, List.all_cons]
    rw [isBlank, isBlank] at ih
    rw [ih]
  | literal _ _ _ => rw [TextLiteral.not_blank, TextLiteral.not_blank]

/-- Texts that are aligned part by part are aligned. -/
theorem intercalate (sep : List Char) {ls ls' : List (List Char)}
    (h : List.Forall₂ (AlignedChars v v') ls ls') :
    AlignedChars v v' (sep.intercalate ls) (sep.intercalate ls') := by
  induction h with
  | nil => exact .nil
  | @cons line line' ls ls' hline hls ih =>
    cases hls with
    | nil =>
      rw [List.intercalate_singleton, List.intercalate_singleton]
      exact hline
    | cons hnext hrest =>
      rw [List.intercalate_cons_cons, List.intercalate_cons_cons]
      exact (hline.append (.refl sep)).append ih

/-- What stands in front of a text belongs to its first line. -/
theorem modifyHead {ls ls' : List (List Char)} (h : List.Forall₂ (AlignedChars v v') ls ls')
    (hfront : ∀ l l', AlignedChars v v' l l' → AlignedChars v v' (a ++ l) (a' ++ l')) :
    List.Forall₂ (AlignedChars v v') (ls.modifyHead (a ++ ·)) (ls'.modifyHead (a' ++ ·)) := by
  cases h with
  | nil => exact .nil
  | cons hline hrest => exact .cons (hfront _ _ hline) hrest

/-- Aligned texts have aligned lines. -/
theorem lines (h : AlignedChars v v' t t') :
    List.Forall₂ (AlignedChars v v') (lines t) (lines t') := by
  induction h with
  | nil => exact .cons .nil .nil
  | @char c t t' _ ih =>
    by_cases hc : c = '\n'
    · -- both texts end a line here
      have hnewline : ∀ rest, TradeFlow.lines (c :: rest) = [] :: TradeFlow.lines rest := by
        intro rest
        rw [hc]
        exact lines_append [] rest
      rw [hnewline, hnewline]
      exact .cons .nil ih
    · have hfirst : '\n' ∉ [c] := by simpa [eq_comm] using hc
      have hcons : ∀ rest, TradeFlow.lines (c :: rest) =
          (TradeFlow.lines rest).modifyHead ([c] ++ ·) := lines_append_of_not_mem hfirst
      rw [hcons, hcons]
      exact modifyHead ih fun _ _ hl => .char c hl
  | @literal l l' t t' hl _ ih =>
    -- two literals of any length stay in one line
    rw [lines_append_of_not_mem l.newline_not_mem, lines_append_of_not_mem l'.newline_not_mem]
    exact modifyHead ih fun _ _ hline => .literal hl hline

theorem indentLine (h : AlignedChars v v' t t') (width : Nat) :
    AlignedChars v v' (indentLine width t) (indentLine width t') := by
  unfold TradeFlow.indentLine
  rw [h.isBlank_eq]
  split
  · exact h
  · exact (refl _).append h

/-- Indenting keeps texts aligned. -/
theorem indentChars (h : AlignedChars v v' t t') (width : Nat) :
    AlignedChars v v' (indentChars width t) (indentChars width t') := by
  refine intercalate ['\n'] ?_
  rw [List.forall₂_map_left_iff, List.forall₂_map_right_iff]
  exact h.lines.imp fun _ _ hline => hline.indentLine width

/-- Aligned texts have the same line breaks. -/
theorem count_newline (h : AlignedChars v v' t t') : t.count '\n' = t'.count '\n' := by
  induction h with
  | nil => rfl
  | char c _ ih => rw [List.count_cons, List.count_cons, ih]
  | @literal l l' _ _ _ _ ih =>
    rw [List.count_append, List.count_append, ih, List.count_eq_zero_of_not_mem l.newline_not_mem,
      List.count_eq_zero_of_not_mem l'.newline_not_mem]

end AlignedChars

namespace Aligned

variable {x x' y y' : String} {xs xs' : List String}

theorem refl (x : String) : Aligned v v' x x := AlignedChars.refl _

theorem append (h : Aligned v v' x x') (h' : Aligned v v' y y') :
    Aligned v v' (x ++ y) (x' ++ y') := by
  rw [Aligned, String.toList_append, String.toList_append]
  exact AlignedChars.append h h'

theorem fixed (h : Aligned v v' x x') (y : String) : Aligned v v' (x ++ y) (x' ++ y) :=
  h.append (.refl y)

theorem literal {l l' : TextLiteral} (h : l.Alike v v' l') : Aligned v v' l.text l'.text := by
  have hplace : AlignedChars v v' (l.text.toList ++ []) (l'.text.toList ++ []) := .literal h .nil
  rw [List.append_nil, List.append_nil] at hplace
  exact hplace

theorem indent (h : Aligned v v' x x') (width : Nat) :
    Aligned v v' (indent width x) (indent width x') := by
  rw [Aligned, TradeFlow.indent, TradeFlow.indent, String.toList_ofList, String.toList_ofList]
  exact AlignedChars.indentChars h width

theorem intercalate (sep : String) (h : List.Forall₂ (Aligned v v') xs xs') :
    Aligned v v' (sep.intercalate xs) (sep.intercalate xs') := by
  rw [Aligned, String.toList_intercalate, String.toList_intercalate]
  refine AlignedChars.intercalate sep.toList ?_
  rw [List.forall₂_map_left_iff, List.forall₂_map_right_iff]
  exact h

theorem join (h : List.Forall₂ (Aligned v v') xs xs') :
    Aligned v v' (String.join xs) (String.join xs') := by
  rw [Aligned, String.toList_join, String.toList_join]
  induction h with
  | nil => exact .nil
  | cons hx _ ih =>
    rw [List.flatMap_cons, List.flatMap_cons]
    exact AlignedChars.append hx ih

theorem lineCount_eq (h : Aligned v v' x x') : lineCount x = lineCount x' := by
  rw [lineCount, lineCount, AlignedChars.count_newline h]

/-- Aligned texts come from the same segments. -/
theorem exists_segments (h : Aligned v v' x x') :
    ∃ segments : List Segment,
      (∀ ref, .setting ref ∈ segments → (v ref).isSome ∧ (v' ref).isSome) ∧
      x = fill v segments ∧ x' = fill v' segments := by
  obtain ⟨segments, hsome, hx, hx'⟩ := AlignedChars.exists_segments h
  exact ⟨segments, hsome, String.toList_inj.1 hx, String.toList_inj.1 hx'⟩

end Aligned

/-! ## Blocks -/

section Blocks

variable (v v' : Values)

/-- Equal arguments, or literals of one setting. -/
inductive Argument.Alike : Argument → Argument → Prop where
  | same (a : Argument) : Alike a a
  | literal {l l' : TextLiteral} (h : l.Alike v v' l') : Alike (.literal l) (.literal l')

/-- Fields that only differ in the value of a literal. -/
structure Field.Alike (f f' : Field) : Prop where
  name : f.name = f'.name
  comment : f.comment = f'.comment
  value : f.value.Alike v v' f'.value

/-- Calls that only differ in the values of literals. -/
structure Call.Alike (c c' : Call) : Prop where
  result : c.result = c'.result
  function : c.function = c'.function
  note : c.note = c'.note
  fields : List.Forall₂ (Field.Alike v v') c.fields c'.fields

/-- Blocks that only differ in the values of literals. -/
inductive Block.Alike : Block → Block → Prop where
  | nil : Alike .nil .nil
  | call {c c' : Call} {rest rest' : Block} (hc : c.Alike v v' c') (h : Alike rest rest') :
      Alike (.call c rest) (.call c' rest')
  | loop (item : Variable) (array : Option Source) {body body' rest rest' : Block}
      (hbody : Alike body body') (h : Alike rest rest') :
      Alike (.loop item array body rest) (.loop item array body' rest')
  | branch (condition : Condition) {yes yes' no no' : Block} (hyes : Alike yes yes')
      (hno : Alike no no') : Alike (.branch condition yes no) (.branch condition yes' no')

end Blocks

theorem Argument.Alike.text {x x' : Argument} (h : x.Alike v v' x') :
    Aligned v v' x.text x'.text := by
  cases h with
  | same => exact .refl _
  | literal hl => exact .literal hl

theorem Field.Alike.refl (f : Field) : f.Alike v v' f := ⟨rfl, rfl, .same _⟩

theorem Field.Alike.text {f f' : Field} (h : f.Alike v v' f') : Aligned v v' f.text f'.text := by
  rw [Field.text, Field.text, h.name, h.comment]
  exact ((((Aligned.refl _).append h.value.text).fixed _).fixed _).fixed _

theorem Call.aligned_arguments {fields fields' : List Field}
    (h : List.Forall₂ (Field.Alike v v') fields fields') :
    Aligned v v' (Call.arguments fields) (Call.arguments fields') := by
  have hempty : fields.isEmpty = fields'.isEmpty := by cases h <;> rfl
  have htexts : List.Forall₂ (Aligned v v') (fields.map Field.text) (fields'.map Field.text) := by
    rw [List.forall₂_map_left_iff, List.forall₂_map_right_iff]
    exact h.imp fun _ _ hf => hf.text
  rw [Call.arguments, Call.arguments, hempty]
  split
  · exact .refl _
  · exact ((Aligned.refl _).append (.join htexts)).fixed _

theorem Call.Alike.text {c c' : Call} (h : c.Alike v v' c') : Aligned v v' c.text c'.text := by
  rw [Call.text, Call.text, h.note, h.result, h.function]
  exact ((Aligned.refl _).append (Call.aligned_arguments h.fields)).fixed _

theorem aligned_joinStatements {xs xs' : List String} (h : List.Forall₂ (Aligned v v') xs xs') :
    Aligned v v' (joinStatements xs) (joinStatements xs') := .intercalate _ h

theorem aligned_braced {x x' : String} (h : Aligned v v' x x') :
    Aligned v v' (braced x) (braced x') :=
  ((Aligned.refl _).append (h.indent 2)).fixed _

theorem aligned_loopText (item : Variable) (array : Option Source) {x x' : String}
    (h : Aligned v v' x x') : Aligned v v' (loopText item array x) (loopText item array x') :=
  .append (.refl _) (aligned_braced h)

theorem aligned_branchText (condition : Condition) {yes yes' no no' : List String}
    (hyes : List.Forall₂ (Aligned v v') yes yes') (hno : List.Forall₂ (Aligned v v') no no') :
    Aligned v v' (branchText condition yes no) (branchText condition yes' no') := by
  -- the second block is left out on both sides or on none
  have hempty : no.isEmpty = no'.isEmpty := by cases hno <;> rfl
  rw [branchText, branchText, hempty]
  refine .append (.append (.refl _) (aligned_braced (aligned_joinStatements hyes))) ?_
  split
  · exact .refl _
  · exact .append (.refl _) (aligned_braced (aligned_joinStatements hno))

namespace Block.Alike

variable {x x' : Block}

theorem statements (h : x.Alike v v' x') :
    List.Forall₂ (Aligned v v') x.statements x'.statements := by
  induction h with
  | nil => exact .nil
  | call hc _ ih => exact .cons hc.text ih
  | loop item array _ _ ihbody ihrest =>
    exact .cons (aligned_loopText item array (aligned_joinStatements ihbody)) ihrest
  | branch condition _ _ ihyes ihno => exact .cons (aligned_branchText condition ihyes ihno) .nil

theorem text (h : x.Alike v v' x') : Aligned v v' x.text x'.text :=
  aligned_joinStatements h.statements

theorem length_eq (h : x.Alike v v' x') : x.length = x'.length := by
  induction h with
  | nil => rfl
  | call _ _ ih => rw [length, length, ih]
  | loop _ _ _ _ _ ihrest => rw [length, length, ihrest]
  | branch _ _ _ _ _ => rfl

theorem size_eq (h : x.Alike v v' x') : x.size = x'.size := by
  induction h with
  | nil => rfl
  | call _ _ ih => rw [size, size, ih]
  | loop _ _ _ _ ihbody ihrest => rw [size, size, ihbody, ihrest]
  | branch _ _ _ ihyes ihno => rw [size, size, ihyes, ihno]

end Block.Alike

/-! ## Programs -/

/-- Strategy settings that only differ in texts, and agree on whether there is a name and on how many
tags there are. -/
structure StrategyConfig.Alike (s s' : StrategyConfig) : Prop where
  intervalMinutes : s.intervalMinutes = s'.intervalMinutes
  named : s.strategyName = "" ↔ s'.strategyName = ""
  tags : s.tags.length = s'.tags.length

/-- The values that strategy settings give to what a program shows of them. -/
structure StrategyConfig.Shown (v : Values) (s : StrategyConfig) : Prop where
  startTime : v (.strategy "startTime") = some s.startTime
  endTime : v (.strategy "endTime") = some s.endTime
  strategyName : v (.strategy "strategyName") = some s.strategyName
  tag : ∀ i, v (.tag i) = s.tags[i]?

namespace Program

variable {s s' : StrategyConfig}

theorem aligned_strategyLiteral {key value value' : String}
    (hv : v (.strategy key) = some value) (hv' : v' (.strategy key) = some value') :
    Aligned v v' (strategyLiteral key value).text (strategyLiteral key value').text :=
  .literal ⟨rfl, hv, hv'⟩

theorem aligned_nameLine (h : s.Alike s') (hs : s.Shown v) (hs' : s'.Shown v') :
    Aligned v v' (nameLine s) (nameLine s') := by
  have hname := aligned_strategyLiteral hs.strategyName hs'.strategyName
  rw [nameLine, nameLine]
  by_cases hempty : s.strategyName = ""
  · rw [if_pos hempty, if_pos (h.named.1 hempty)]
    exact .refl _
  · rw [if_neg hempty, if_neg (mt h.named.2 hempty)]
    exact ((Aligned.refl _).append hname).fixed _

/-- Tags are aligned one by one, each with its own place. -/
theorem forall₂_tagLiterals (h : s.Alike s') (hs : s.Shown v) (hs' : s'.Shown v') :
    List.Forall₂ (TextLiteral.Alike v v') (tagLiterals s.tags) (tagLiterals s'.tags) := by
  refine List.forall₂_iff_get.2 ⟨by simp [tagLiterals, h.tags], fun i hi hi' => ?_⟩
  simp only [tagLiterals, List.length_map, List.length_zipIdx] at hi hi'
  simp only [tagLiterals, List.get_eq_getElem, List.getElem_map, List.getElem_zipIdx, Nat.zero_add]
  refine ⟨rfl, ?_, ?_⟩
  · rw [hs.tag, List.getElem?_eq_getElem hi]
  · rw [hs'.tag, List.getElem?_eq_getElem hi']

theorem aligned_tagsLine (h : s.Alike s') (hs : s.Shown v) (hs' : s'.Shown v') :
    Aligned v v' (tagsLine s) (tagsLine s') := by
  have hempty : s.tags.isEmpty = s'.tags.isEmpty := by
    rw [Bool.eq_iff_iff, List.isEmpty_iff_length_eq_zero, List.isEmpty_iff_length_eq_zero, h.tags]
  have htexts : List.Forall₂ (Aligned v v') ((tagLiterals s.tags).map TextLiteral.text)
      ((tagLiterals s'.tags).map TextLiteral.text) := by
    rw [List.forall₂_map_left_iff, List.forall₂_map_right_iff]
    exact (forall₂_tagLiterals h hs hs').imp fun _ _ hl => .literal hl
  rw [tagsLine, tagsLine, hempty]
  split
  · exact .refl _
  · exact ((Aligned.refl _).append (.intercalate _ htexts)).fixed _

theorem aligned_closing (h : s.Alike s') (hs : s.Shown v) (hs' : s'.Shown v') :
    Aligned v v' (closing s) (closing s') := by
  have hstart := aligned_strategyLiteral hs.startTime hs'.startTime
  have hend := aligned_strategyLiteral hs.endTime hs'.endTime
  have hname := aligned_nameLine h hs hs'
  have htags := aligned_tagsLine h hs hs'
  unfold closing
  rw [h.intervalMinutes]
  exact (((((((((((Aligned.refl _).append hstart).fixed _).fixed _).append hend).fixed _).fixed _).fixed
    _).fixed _).append hname).append htags).fixed _

theorem aligned_opening (capabilities : List Capability) {x x' : String} (h : Aligned v v' x x') :
    Aligned v v' (opening capabilities x) (opening capabilities x') :=
  ((Aligned.refl _).append (h.indent 4)).fixed _

end Program

end TradeFlow
