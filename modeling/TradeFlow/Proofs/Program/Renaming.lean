import TradeFlow.Compile.Lower
import TradeFlow.Program.Basic

/-!
Programs, tables and events under new ids of nodes.

A program keeps ids in two places: it names the node that its settings come from, and each literal
says which setting of which node it shows. The table of bindings is keyed by outputs of nodes, and
events and errors name nodes. `rename` puts new ids in all of these. What is proved:

1. `Block.statements_rename` and `Program.source_rename`: no id shows in the text of a program.
2. `Block.length_rename` and `Block.size_rename`: the numbers of statements stay the same.
3. `Program.rename_id` and `Halt.rename_id`: with its own ids everything stays as it is.
-/

namespace TradeFlow

variable (ρ : String → String)

/-! ## New ids -/

def OutputRef.rename (ref : OutputRef) : OutputRef := ⟨ρ ref.node, ref.output⟩

def SettingRef.rename : SettingRef → SettingRef
  | .node id key => .node (ρ id) key
  | ref => ref

def Argument.rename : Argument → Argument
  | .literal l => .literal ⟨l.setting.rename ρ, l.value⟩
  | a => a

def Field.rename (f : Field) : Field := { f with value := f.value.rename ρ }

def Call.rename (c : Call) : Call := { c with fields := c.fields.map (Field.rename ρ) }

def Block.rename : Block → Block
  | .nil => .nil
  | .call c rest => .call (c.rename ρ) rest.rename
  | .loop item array body rest => .loop item array body.rename rest.rename
  | .branch condition yes no => .branch condition yes.rename no.rename

def Program.rename (p : Program) : Program :=
  { p with configNode := ρ p.configNode, body := p.body.rename ρ }

/-- What is known does not change, only the outputs that it is known of. -/
def Known.rename (known : Known) : Known :=
  { known with bindings := known.bindings.map fun (ref, b) => (ref.rename ρ, b) }

/-- Of all errors only a cycle names a node. -/
def CompileError.rename : CompileError → CompileError
  | .cycle ref => .cycle (ref.rename ρ)
  | e => e

def Halt.rename : Halt → Halt
  | .failed e => .failed (e.rename ρ)
  | .aborted => .aborted

def Event.rename : Event → Event
  | .opened node kind => .opened (ρ node) kind
  | .emitted node kind lines => .emitted (ρ node) kind lines
  | .closed error => .closed (error.map (CompileError.rename ρ))

/-! ## Texts -/

@[simp] theorem Argument.text_rename (a : Argument) : (a.rename ρ).text = a.text := by
  cases a <;> rfl

@[simp] theorem Field.text_rename (f : Field) : (f.rename ρ).text = f.text := by
  simp only [Field.text, Field.rename, Argument.text_rename]

theorem Call.arguments_rename (fields : List Field) :
    Call.arguments (fields.map (Field.rename ρ)) = Call.arguments fields := by
  have htexts : (fields.map (Field.rename ρ)).map Field.text = fields.map Field.text := by
    rw [List.map_map]
    exact List.map_congr_left fun f _ => Field.text_rename ρ f
  simp only [Call.arguments, List.isEmpty_map, htexts]

@[simp] theorem Call.text_rename (c : Call) : (c.rename ρ).text = c.text := by
  simp only [Call.text, Call.rename, Call.arguments_rename]

namespace Block

@[simp] theorem statements_rename (b : Block) : (b.rename ρ).statements = b.statements := by
  induction b with
  | nil => rfl
  | call c rest ih => simp only [rename, statements, Call.text_rename, ih]
  | loop item array body rest ihbody ihrest => simp only [rename, statements, ihbody, ihrest]
  | branch condition yes no ihyes ihno => simp only [rename, statements, ihyes, ihno]

@[simp] theorem text_rename (b : Block) : (b.rename ρ).text = b.text := by
  simp only [text, statements_rename]

@[simp] theorem length_rename (b : Block) : (b.rename ρ).length = b.length := by
  induction b with
  | nil => rfl
  | call c rest ih => simp only [rename, length, ih]
  | loop item array body rest _ ih => simp only [rename, length, ih]
  | branch condition yes no => rfl

@[simp] theorem size_rename (b : Block) : (b.rename ρ).size = b.size := by
  induction b with
  | nil => rfl
  | call c rest ih => simp only [rename, size, ih]
  | loop item array body rest ihbody ihrest => simp only [rename, size, ihbody, ihrest]
  | branch condition yes no ihyes ihno => simp only [rename, size, ihyes, ihno]

end Block

/-- No id shows in the text of a program. -/
theorem Program.source_rename (p : Program) : (p.rename ρ).source = p.source := by
  simp only [source, rename, Block.text_rename]

/-! ## The same ids -/

@[simp] theorem SettingRef.rename_id (ref : SettingRef) : ref.rename id = ref := by
  cases ref <;> rfl

@[simp] theorem Argument.rename_id (a : Argument) : a.rename id = a := by
  cases a with
  | literal l => simp only [rename, SettingRef.rename_id]
  | _ => rfl

@[simp] theorem Call.rename_id (c : Call) : c.rename id = c := by
  have hfield : Field.rename id = id := by
    funext f
    simp only [Field.rename, Argument.rename_id, id]
  simp only [rename, hfield, List.map_id]

@[simp] theorem Block.rename_id (b : Block) : b.rename id = b := by
  induction b with
  | nil => rfl
  | call c rest ih => simp only [rename, Call.rename_id, ih]
  | loop item array body rest ihbody ihrest => simp only [rename, ihbody, ihrest]
  | branch condition yes no ihyes ihno => simp only [rename, ihyes, ihno]

@[simp] theorem Program.rename_id (p : Program) : p.rename id = p := by
  simp only [rename, Block.rename_id, id]

@[simp] theorem Known.rename_id (known : Known) : known.rename id = known := by
  have hentry : (fun (x : OutputRef × Binding Source) => (x.1.rename id, x.2)) = id := rfl
  simp only [rename, hentry, List.map_id]

@[simp] theorem Halt.rename_id (halt : Halt) : halt.rename id = halt := by
  cases halt with
  | failed e => cases e <;> rfl
  | aborted => rfl

end TradeFlow
