import TradeFlow.Document.Text
import TradeFlow.Proofs.Document.RoundTrip
import TradeFlow.Proofs.Json.Layout

/-!
Documents in JSON are read back.

What is written as JSON is read as JSON again; what the reader of documents makes of it is not quite
what was written, because the settings of a node are loosely typed. What is proved:

1. `Value.Writable.exists_layout` and `Value.Writable.toValue?_json`: a setting is written, and it is
   read as `Value.viaJson`.
2. `DocumentNode.Writable.jsonNode?_json`, `Connection.jsonConnection?_json`: so are nodes and
   connections.
3. `Document.Writable.exists_text`: a document comes back from its text as `Document.viaJson`.
-/

namespace TradeFlow

/-- A text without bytes of no character. -/
def Clean (s : String) : Prop := repaired s = s

instance (s : String) : Decidable (Clean s) := inferInstanceAs (Decidable (_ = _))

/-! ## Values -/

namespace Value

/-- A value as it comes back from JSON: whole numbers are read as the nearest double, and no list is
known to hold strings alone. -/
def viaJson : Value → Value
  | .int i => .float (Binary64.ofInt i)
  | .strings ss => .list (ss.map .string)
  | v => v

/-- A setting that JSON has a form for: texts are clean, numbers finite and whole numbers have 64
bits. -/
def Writable : Value → Prop
  | .string s => Clean s
  | .bool _ => True
  | .int i => fitsInt64 i = true
  | .float x => x.isFinite = true
  | .strings ss => ∀ s ∈ ss, Clean s
  | _ => False

instance : DecidablePred Writable
  | .string s => inferInstanceAs (Decidable (Clean s))
  | .bool _ => .isTrue trivial
  | .int i => inferInstanceAs (Decidable (fitsInt64 i = true))
  | .float x => inferInstanceAs (Decidable (x.isFinite = true))
  | .strings ss => inferInstanceAs (Decidable (∀ s ∈ ss, Clean s))
  | .null | .int64 _ | .uint64 _ | .list _ | .map _ | .keyed _ | .instant _ => .isFalse id

/-- The JSON that a setting is written as. -/
def json : Value → Json
  | .string s => .string s
  | .bool b => .bool b
  | .int i => .number (Json.intNumber i)
  | .float x => .number (Json.doubleNumber x)
  | .strings ss => .array (ss.map .string)
  | _ => .null

theorem transparent_viaJson : Transparent viaJson where
  string _ := rfl
  bool _ := rfl
  float _ := rfl
  strings ss := by
    show (ss.map Value.string).mapM asString? = some ss
    rw [List.mapM_map]
    exact (mapM_eq_some_map fun s _ => rfl).trans (congrArg some (List.map_id ss))

end Value

open Json JsonLayout

theorem Json.ReadAs.clean {levels : Nat} {s : String} (h : Clean s) :
    ReadAs levels (JsonLayout.string s) (.string s) := by
  have hread : ReadAs levels _ _ := ReadAs.string s
  rwa [h] at hread

theorem Json.MemberReadAs.of_clean {levels : Nat} {name : String} {l : JsonLayout} {json : Json}
    (hname : Clean name) (h : ReadAs levels l json) :
    MemberReadAs levels (name, l) (name, json) := ⟨hname.symm, h⟩

namespace Value

variable {v : Value}

theorem Writable.exists_layout (h : v.Writable) (levels : Nat) :
    ∃ l, ofValue? v = some l ∧ ReadAs (levels + 1) l v.json := by
  cases v with
  | string s => exact ⟨_, rfl, .clean h⟩
  | bool b => exact ⟨_, rfl, .bool b⟩
  | int i => exact ⟨_, rfl, .int i⟩
  | float x => exact ⟨_, if_pos h, .float h⟩
  | strings ss =>
    refine ⟨_, rfl, .array ?_⟩
    rw [List.forall₂_map_left_iff, List.forall₂_map_right_iff, List.forall₂_same]
    exact fun s hs => .clean (h s hs)
  | _ => cases h

theorem toValues?_strings (ss : List String) :
    toValues? (ss.map Json.string) = some (ss.map Value.string) := by
  induction ss with
  | nil => rfl
  | cons s ss ih =>
    rw [List.map_cons, toValues?, ih]
    rfl

theorem Writable.toValue?_json (h : v.Writable) : v.json.toValue? = some v.viaJson := by
  cases v with
  | string s => rfl
  | bool b => rfl
  | int i =>
    have hfinite : (Binary64.ofInt i).isFinite = true := Binary64.isFinite_ofInt h
    rw [json, Json.toValue?, toBinary64_intNumber h, if_pos hfinite]
    rfl
  | float x =>
    have hfinite : x.isFinite = true := h
    rw [json, Json.toValue?, toBinary64_doubleNumber h, if_pos hfinite]
    rfl
  | strings ss =>
    rw [json, Json.toValue?, toValues?_strings]
    rfl
  | _ => cases h

end Value

/-! ## Entries -/

namespace Entries

variable {entries : Entries}

/-- The members that entries are written as. -/
def json (entries : Entries) : List (String × Json) := entries.map fun e => (e.1, e.2.json)

def viaJson (entries : Entries) : Entries := entries.map fun e => (e.1, e.2.viaJson)

/-- Entries under clean names with values that JSON has a form for. -/
def Writable (entries : Entries) : Prop := ∀ e ∈ entries, Clean e.1 ∧ e.2.Writable

theorem Writable.exists_layout (h : entries.Writable) (levels : Nat) :
    ∃ members, ofEntries? entries = some members ∧
      List.Forall₂ (MemberReadAs (levels + 1)) members entries.json := by
  induction entries with
  | nil => exact ⟨[], rfl, .nil⟩
  | cons e rest ih =>
    obtain ⟨key, v⟩ := e
    obtain ⟨⟨hkey, hv : v.Writable⟩, hrest⟩ := List.forall_mem_cons.1 h
    obtain ⟨l, hl, hread⟩ := hv.exists_layout levels
    obtain ⟨members, hmembers, hreads⟩ := ih hrest
    exact ⟨(key, l) :: members, by rw [ofEntries?, hl, hmembers], .cons ⟨hkey.symm, hread⟩ hreads⟩

theorem Writable.toPairs?_json (h : entries.Writable) :
    toPairs? entries.json = some entries.viaJson := by
  induction entries with
  | nil => rfl
  | cons e rest ih =>
    obtain ⟨key, v⟩ := e
    obtain ⟨⟨-, hv : v.Writable⟩, hrest⟩ := List.forall_mem_cons.1 h
    show toPairs? ((key, v.json) :: Entries.json rest) = _
    rw [toPairs?, hv.toValue?_json, ih hrest]
    rfl

end Entries

/-! ## Fields -/

namespace Document

theorem fieldOf?_of_mem {fields : List String} {name : String} (h : name ∈ fields) :
    fieldOf? fields name = some name := by
  cases hfind : fields.find? (· == name) with
  | none => exact absurd (beq_self_eq_true name) (List.find?_eq_none.1 hfind name h)
  | some f =>
    have hf : f = name := by simpa using List.find?_some hfind
    rw [fieldOf?, hfind, hf]
    rfl

variable {α : Type} {fields : List String} {read : String → Json → α → Option α}

/-- A member under the name of a field is read into the value. -/
theorem jsonObject?_cons {name : String} {value : Json} {members : List (String × Json)}
    {before : α} (after : α) (h : name ∈ fields) (hread : read name value before = some after) :
    jsonObject? fields read before (.object ((name, value) :: members)) =
      jsonObject? fields read after (.object members) := by
  simp only [jsonObject?, List.foldlM_cons, fieldOf?_of_mem h, Option.bind_eq_bind,
    Option.bind_some, hread]

theorem jsonObject?_nil (before : α) : jsonObject? fields read before (.object []) = some before :=
  rfl

theorem jsonFloat?_double {x : Binary64} (h : x.isFinite = true) (before : Binary64) :
    jsonFloat? before (.number (doubleNumber x)) = some x := by
  rw [jsonFloat?, toBinary64_doubleNumber h, if_pos h]

/-- The JSON that a position is written as. -/
def positionJson (p : Position) : Json :=
  .object [("x", .number (doubleNumber p.x)), ("y", .number (doubleNumber p.y))]

theorem jsonPosition?_positionJson {p : Position} (hx : p.x.isFinite = true)
    (hy : p.y.isFinite = true) (before : Position) :
    jsonPosition? before (positionJson p) = some p := by
  rw [jsonPosition?, positionJson,
    jsonObject?_cons ⟨p.x, before.y⟩ (by decide) ?_,
    jsonObject?_cons p (by decide) ?_]
  · rfl
  · show Option.map _ _ = _
    rw [jsonFloat?_double hy]
    rfl
  · show Option.map _ _ = _
    rw [jsonFloat?_double hx]
    rfl

/-- The last member of a node, if it has settings. -/
def configJson : Option Entries → List (String × Json)
  | none => []
  | some [] => []
  | some entries => [("config", .object entries.json)]

/-- Settings as they come back from JSON. -/
def configViaJson : Option Entries → Option Entries
  | none => none
  | some [] => none
  | some entries => some (Entries.ofList entries.viaJson)

theorem jsonConfig?_none {entries : Entries} (h : entries.Writable) :
    jsonConfig? none (.object entries.json) = some (some (Entries.ofList entries.viaJson)) := by
  rw [jsonConfig?, h.toPairs?_json]
  rfl

/-- Values with distinct names are found under them again. -/
theorem get?_configViaJson {config : Option Entries}
    (h : ((config.getD []).map (·.1)).Nodup) (key : String) :
    ((configViaJson config).getD []).get? key =
      ((config.getD []).get? key).map Value.viaJson := by
  match config, h with
  | none, _ => rfl
  | some [], _ => rfl
  | some (e :: rest), h =>
    have hkeys : (Entries.viaJson (e :: rest)).map (·.1) = (e :: rest).map (·.1) := by
      rw [Entries.viaJson, List.map_map]
      rfl
    show (Entries.ofList (Entries.viaJson (e :: rest))).get? key = _
    rw [Entries.get?_ofList (hkeys ▸ h), Entries.viaJson, Entries.get?_map]
    rfl

end Document

/-! ## Nodes and connections -/

namespace DocumentNode

/-- A node that JSON has a form for. -/
structure Writable (m : DocumentNode) : Prop where
  id_clean : Clean m.id
  kind_clean : Clean m.kind
  x_finite : m.position.x.isFinite = true
  y_finite : m.position.y.isFinite = true
  config : Entries.Writable (m.config.getD [])

/-- The JSON that a node is written as. -/
def json (m : DocumentNode) : Json :=
  .object (("id", .string m.id) :: ("kind", .string m.kind)
    :: ("position", Document.positionJson m.position) :: Document.configJson m.config)

/-- A node as it comes back from JSON. -/
def viaJson (m : DocumentNode) : DocumentNode :=
  { m with config := Document.configViaJson m.config }

variable {m : DocumentNode}

open Document

theorem Writable.jsonNode?_json (h : m.Writable) : jsonNode? blank m.json = some m.viaJson := by
  have hposition := jsonPosition?_positionJson h.x_finite h.y_finite blank.position
  rw [jsonNode?, json,
    jsonObject?_cons { blank with id := m.id } (by decide) rfl,
    jsonObject?_cons { blank with id := m.id, kind := m.kind } (by decide) rfl,
    jsonObject?_cons { m with config := none } (by decide)
      (congrArg (Option.map _) hposition)]
  obtain ⟨i, k, p, config⟩ := m
  match config, h.config with
  | none, _ => rfl
  | some [], _ => rfl
  | some (e :: rest), hconfig =>
    exact jsonObject?_cons _ (by decide) (congrArg (Option.map _) (jsonConfig?_none hconfig))

theorem layoutConfig?_eq {config : Option Entries} (h : Entries.Writable (config.getD []))
    (levels : Nat) :
    ∃ members, layoutConfig? config = some members ∧
      List.Forall₂ (MemberReadAs (levels + 2)) members (configJson config) := by
  match config, h with
  | none, _ => exact ⟨[], rfl, .nil⟩
  | some [], _ => exact ⟨[], rfl, .nil⟩
  | some (e :: rest), h =>
    obtain ⟨members, hmembers, hreads⟩ := Entries.Writable.exists_layout h levels
    refine ⟨[("config", .object members)], ?_, .cons (.of_clean (by decide) (.object hreads)) .nil⟩
    exact congrArg (Option.map fun members => [("config", JsonLayout.object members)]) hmembers

theorem Writable.exists_layout (h : m.Writable) (levels : Nat) :
    ∃ l, layoutNode? m = some l ∧ ReadAs (levels + 3) l m.json := by
  obtain ⟨members, hmembers, hreads⟩ := layoutConfig?_eq h.config levels
  have hx : float? m.position.x = some (.atom (NumberFormat.object.text m.position.x)) :=
    if_pos h.x_finite
  have hy : float? m.position.y = some (.atom (NumberFormat.object.text m.position.y)) :=
    if_pos h.y_finite
  refine ⟨_, ?_, .object (.cons (.of_clean (by decide) (.clean h.id_clean))
    (.cons (.of_clean (by decide) (.clean h.kind_clean))
    (.cons (.of_clean (by decide) (.object (.cons (.of_clean (by decide) (.float h.x_finite))
      (.cons (.of_clean (by decide) (.float h.y_finite)) .nil)))) hreads)))⟩
  simp only [layoutNode?, hx, hy, hmembers]
  rfl

end DocumentNode

namespace Connection

/-- A connection between clean texts. -/
structure Writable (c : Connection) : Prop where
  id_clean : Clean c.id
  source_clean : Clean c.source
  sourceOutput_clean : Clean c.sourceOutput
  target_clean : Clean c.target
  targetInput_clean : Clean c.targetInput

instance (c : Connection) : Decidable c.Writable :=
  decidable_of_iff
    (Clean c.id ∧ Clean c.source ∧ Clean c.sourceOutput ∧ Clean c.target ∧ Clean c.targetInput)
    ⟨fun ⟨hid, hsource, houtput, htarget, hinput⟩ => ⟨hid, hsource, houtput, htarget, hinput⟩,
      fun h => ⟨h.1, h.2, h.3, h.4, h.5⟩⟩

/-- The JSON that a connection is written as. -/
def json (c : Connection) : Json :=
  .object ((if c.id = "" then [] else [("id", .string c.id)])
    ++ [("source", .string c.source), ("sourceOutput", .string c.sourceOutput),
      ("target", .string c.target), ("targetInput", .string c.targetInput)])

variable {c : Connection}

open Document

theorem Writable.readAs (h : c.Writable) (levels : Nat) :
    ReadAs (levels + 1) (layoutConnection c) c.json := by
  have hid : List.Forall₂ (MemberReadAs levels)
      (if c.id = "" then [] else [("id", JsonLayout.string c.id)])
      (if c.id = "" then [] else [("id", Json.string c.id)]) := by
    split
    · exact .nil
    · exact .cons (.of_clean (by decide) (.clean h.id_clean)) .nil
  exact .object (List.rel_append hid (.cons (.of_clean (by decide) (.clean h.source_clean))
    (.cons (.of_clean (by decide) (.clean h.sourceOutput_clean))
    (.cons (.of_clean (by decide) (.clean h.target_clean))
    (.cons (.of_clean (by decide) (.clean h.targetInput_clean)) .nil)))))

theorem jsonConnection?_json (c : Connection) : jsonConnection? blankConnection c.json = some c := by
  obtain ⟨⟨source, output, target, input⟩, i⟩ := c
  by_cases hid : i = ""
  · subst hid
    rfl
  · rw [json, if_neg hid]
    rfl

end Connection

/-! ## Documents -/

namespace Document

variable {α : Type} {levels : Nat}

/-- The JSON that a list is written as. -/
def listJson (item : α → Json) : Option (List α) → Json
  | none => .null
  | some items => .array (items.map item)

theorem layoutList?_eq (write : α → Option JsonLayout) (item : α → Json) {list : Option (List α)}
    (h : ∀ a ∈ list.getD [], ∃ l, write a = some l ∧ ReadAs levels l (item a)) :
    ∃ l, layoutList? write list = some l ∧ ReadAs (levels + 1) l (listJson item list) := by
  cases list with
  | none => exact ⟨_, rfl, .null⟩
  | some items =>
    have hitems : ∃ ls, items.mapM write = some ls ∧
        List.Forall₂ (ReadAs levels) ls (items.map item) := by
      change ∀ a ∈ items, _ at h
      induction items with
      | nil => exact ⟨[], rfl, .nil⟩
      | cons a items ih =>
        obtain ⟨⟨l, hl, hread⟩, hrest⟩ := List.forall_mem_cons.1 h
        obtain ⟨ls, hls, hreads⟩ := ih hrest
        exact ⟨l :: ls, by simp [List.mapM_cons, hl, hls], .cons hread hreads⟩
    obtain ⟨ls, hls, hreads⟩ := hitems
    exact ⟨.array ls, congrArg (Option.map JsonLayout.array) hls, .array hreads⟩

variable {read : α → Json → Option α} {blank : α} {item : α → Json} {back : α → α}

theorem jsonItems?_map {items : List α}
    (h : ∀ a ∈ items, read blank (item a) = some (back a)) :
    jsonItems? read blank [] (items.map item) = some (items.map back, []) := by
  induction items with
  | nil => rfl
  | cons a items ih =>
    obtain ⟨ha, hrest⟩ := List.forall_mem_cons.1 h
    have htail := ih hrest
    rw [List.map_cons, jsonItems?, List.headD_nil, ha, List.tail_nil]
    simp only [Option.bind_eq_bind, Option.bind_some, htail]
    rfl

/-- A list that is read for the first time keeps nothing in reserve. -/
theorem jsonList?_listJson {list : Option (List α)}
    (h : ∀ a ∈ list.getD [], read blank (item a) = some (back a)) :
    jsonList? read blank {} (listJson item list) = some { items := list.map (·.map back) } := by
  match list, h with
  | none, _ => rfl
  | some [], _ => rfl
  | some (a :: items), h => exact congrArg (Option.map _) (jsonItems?_map h)

/-- A document with clean texts and numbers that JSON has a form for. -/
structure Writable (d : Document) : Prop where
  version_fits : Value.fitsInt64 d.version = true
  nodes : ∀ n ∈ d.nodeList, n.Writable
  connections : ∀ c ∈ d.connectionList, c.Writable

/-- The JSON that a document is written as. -/
def json (d : Document) : Json :=
  .object [("version", .number (intNumber d.version)), ("nodes", listJson DocumentNode.json d.nodes),
    ("connections", listJson Connection.json d.connections)]

/-- A document as it comes back from JSON. -/
def viaJson (d : Document) : Document :=
  { d with nodes := d.nodes.map (·.map DocumentNode.viaJson) }

variable {d : Document}

theorem Writable.exists_layout (h : d.Writable) (levels : Nat) :
    ∃ l, d.layout? = some l ∧ ReadAs (levels + 5) l d.json := by
  obtain ⟨nodes, hnodes, hreadNodes⟩ := layoutList?_eq layoutNode? DocumentNode.json
    fun n hn => (h.nodes n hn).exists_layout levels
  obtain ⟨connections, hconnections, hreadConnections⟩ :=
    layoutList?_eq (fun c => some (layoutConnection c)) Connection.json
      fun c hc => ⟨_, rfl, (h.connections c hc).readAs (levels + 2)⟩
  refine ⟨_, ?_, .object (.cons (.of_clean (by decide) (.int d.version))
    (.cons (.of_clean (by decide) hreadNodes)
    (.cons (.of_clean (by decide) hreadConnections) .nil)))⟩
  simp only [layout?, hnodes, hconnections]
  rfl

theorem Writable.ofJson?_json (h : d.Writable) : ofJson? d.json = some d.viaJson := by
  have hversion : jsonInt? 0 (.number (intNumber d.version)) = some d.version := by
    rw [jsonInt?, toInt?_intNumber, Option.filter_some, h.version_fits]
    rfl
  have hnodes : jsonList? jsonNode? DocumentNode.blank {} (listJson DocumentNode.json d.nodes) =
      some { items := d.nodes.map (·.map DocumentNode.viaJson) } :=
    jsonList?_listJson fun n hn => (h.nodes n hn).jsonNode?_json
  have hconnections : jsonList? jsonConnection? blankConnection {}
      (listJson Connection.json d.connections) = some { items := d.connections.map (·.map id) } :=
    jsonList?_listJson fun c _ => c.jsonConnection?_json
  rw [ofJson?, json,
    jsonObject?_cons _ (by decide) (congrArg (Option.map _) hversion),
    jsonObject?_cons _ (by decide) (congrArg (Option.map _) hnodes),
    jsonObject?_cons _ (by decide) (congrArg (Option.map _) hconnections)]
  obtain ⟨version, nodes, connections⟩ := d
  have hsame : connections.map (List.map id) = connections := by
    cases connections with
    | none => rfl
    | some connections => exact congrArg some (List.map_id connections)
  simp only [jsonObject?_nil, Option.map_some, Draft.document, viaJson, hsame]

/-- A document comes back from the text that it is written as. -/
theorem Writable.exists_text (h : d.Writable) :
    ∃ text, d.toJsonText? = some text ∧ ofJsonText? text = some d.viaJson := by
  obtain ⟨l, hlayout, hread⟩ := h.exists_layout 9995
  refine ⟨l.text 0 ++ "\n", by rw [toJsonText?, hlayout]; rfl, ?_⟩
  have hend : EndsNumber ['\n'] := by
    rintro _ ⟨⟩
    decide
  have htext : (l.text 0 ++ "\n").toList = (l.text 0).toList ++ ['\n'] := String.toList_append
  rw [ofJsonText?, htext, ReadAs.read? hread 0 hend]
  exact h.ofJson?_json

theorem encode_json {text : String} (h : d.toJsonText? = some text) :
    d.encode "json" = .ok text := by
  have hformat : DocumentFormat.ofName? "json" = some .json := rfl
  have htext : d.toText? .json = some text := h
  simp only [encode, hformat, htext]

theorem decode_json {text : String} (h : ofJsonText? text = some d) (hvalid : d.Valid) :
    decode "json" text = .ok d := by
  have hformat : DocumentFormat.ofName? "json" = some .json := rfl
  have hread : ofText .json text = .ok d := by
    rw [ofText, h]
    rfl
  simp only [decode, hformat, hread, Except.bind, validate_eq_ok_iff.2 hvalid, Except.map]

end Document

end TradeFlow
