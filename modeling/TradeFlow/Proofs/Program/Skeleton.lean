import TradeFlow.Program.Basic
import TradeFlow.Proofs.Template

/-!
The skeleton of a program.

Every program fills one template with the same seven placeholders. What is proved is
`Program.expand_template`: every placeholder of the template has a value in every program, and the
expansion is the text of the program.
-/

namespace TradeFlow

namespace Program

open Template (Piece)

/-- The pieces of a text without placeholders. -/
def textPieces (s : String) : List Piece := s.toList.map .text

/-- The pieces of the template, the placeholders by name. -/
def skeleton : List Piece :=
  textPieces "import \x7b ganaka \x7d from \"@ganaka/sdk\";\n\nawait ganaka(\x7b\n  fn: async (\x7b "
    ++ [.hole "capabilities".toList] ++ textPieces " \x7d) => \x7b\n"
    ++ [.hole "body".toList] ++ textPieces "\n  \x7d,\n"
    ++ textPieces "  startTime: " ++ [.hole "startTime".toList] ++ textPieces ",\n"
    ++ textPieces "  endTime: " ++ [.hole "endTime".toList] ++ textPieces ",\n"
    ++ textPieces "  intervalMinutes: " ++ [.hole "intervalMinutes".toList] ++ textPieces ","
    ++ [.hole "nameLine".toList] ++ [.hole "tagsLine".toList] ++ textPieces "\n\x7d);\n"

/-- The text of the template. -/
def template : String := String.ofList (skeleton.flatMap Piece.spelling)

/-- What a program fills into the placeholders. -/
def values (p : Program) : String → Option String
  | "capabilities" => some (", ".intercalate (p.capabilities.map Capability.name))
  | "body" => some (indent 4 p.body.text)
  | "startTime" => some (strategyLiteral "startTime" p.settings.startTime).text
  | "endTime" => some (strategyLiteral "endTime" p.settings.endTime).text
  | "intervalMinutes" => some (intText p.settings.intervalMinutes)
  | "nameLine" => some (nameLine p.settings)
  | "tagsLine" => some (tagsLine p.settings)
  | _ => none

theorem skeleton_isPlain : skeleton.all Piece.isPlain = true := by
  decide +kernel

section Filling

variable {vars : String → Option String}

/-- A text without placeholders is filled in as it stands. -/
theorem fill_textPieces (s : String) : (textPieces s).flatMap (Template.fill vars) = s.toList := by
  simp [textPieces, List.flatMap_map, Template.fill]

theorem missing_textPieces (s : String) :
    (textPieces s).filterMap (Template.missing? vars) = [] := by
  simp [textPieces, List.filterMap_map, Template.missing?, Function.comp_def]

theorem fill_hole {name value : String} (h : vars name = some value) :
    [Piece.hole name.toList].flatMap (Template.fill vars) = value.toList := by
  rw [List.flatMap_singleton, Template.fill, String.ofList_toList, h]

theorem missing_hole {name value : String} (h : vars name = some value) :
    [Piece.hole name.toList].filterMap (Template.missing? vars) = [] := by
  have hnone : Template.missing? vars (.hole name.toList) = none := by
    rw [Template.missing?, String.ofList_toList, h]
  rw [List.filterMap_cons_none hnone, List.filterMap_nil]

end Filling

/-- Every placeholder of the template has a value, and filled in they give the program. -/
theorem expand_template (p : Program) :
    Template.expand template p.values = (p.source, []) := by
  have hcapabilities : p.values "capabilities" = some _ := rfl
  have hbody : p.values "body" = some _ := rfl
  have hstart : p.values "startTime" = some _ := rfl
  have hend : p.values "endTime" = some _ := rfl
  have hinterval : p.values "intervalMinutes" = some _ := rfl
  have hname : p.values "nameLine" = some _ := rfl
  have htags : p.values "tagsLine" = some _ := rfl
  have hpieces : Template.pieces template.toList = skeleton := by
    rw [template, String.toList_ofList]
    exact Template.pieces_spelling skeleton_isPlain
  unfold Template.expand
  rw [hpieces]
  rw [Prod.mk.injEq, ← String.toList_inj]
  constructor
  · unfold skeleton source opening closing
    simp only [List.flatMap_append, fill_textPieces]
    rw [fill_hole hcapabilities, fill_hole hbody, fill_hole hstart, fill_hole hend,
      fill_hole hinterval, fill_hole hname, fill_hole htags, String.toList_ofList]
    simp only [String.toList_append, List.append_assoc]
  · unfold skeleton
    simp only [List.filterMap_append, missing_textPieces]
    rw [missing_hole hcapabilities, missing_hole hbody, missing_hole hstart, missing_hole hend,
      missing_hole hinterval, missing_hole hname, missing_hole htags]
    rfl

end Program

end TradeFlow
