import TradeFlow.Catalogue

/-!
What the catalogue says about ports.

No input takes several connections, no output carries a number, and control enters a node by its
`exec` input only. So an edge that leaves a control output ends at an `exec` input, and no edge at
all ends at an input that takes a number.

Apart from control, a node gives one value and works on one value, and what it gives never fits what
it works on. The sockets decide which kinds give what a kind works on.
-/

namespace TradeFlow

namespace Socket

theorem eq_exec_of_compatible {t : Socket} (h : Socket.exec.compatible t = true) : t = .exec := by
  cases t <;> simp [compatible] at h ⊢

theorem eq_number_of_compatible {s : Socket} (h : s.compatible .number = true) : s = .number := by
  cases s <;> simp [compatible] at h ⊢

end Socket

namespace Kind

theorem mem_all (kind : Kind) : kind ∈ all := by
  cases kind <;> decide

theorem ofName?_name (kind : Kind) : ofName? kind.name = some kind := by
  cases kind <;> decide

theorem name_injective : Function.Injective name := fun a b h =>
  Option.some.inj ((ofName?_name a).symm.trans (h ▸ ofName?_name b))

theorem mem_inputs_of_input? {kind : Kind} {key : String} {port : Port}
    (h : kind.input? key = some port) : port ∈ kind.spec.inputs ∧ port.key = key :=
  ⟨List.mem_of_find?_eq_some h, by simpa using List.find?_some h⟩

theorem mem_outputs_of_output? {kind : Kind} {key : String} {port : Port}
    (h : kind.output? key = some port) : port ∈ kind.spec.outputs ∧ port.key = key :=
  ⟨List.mem_of_find?_eq_some h, by simpa using List.find?_some h⟩

theorem inputs_all_single (kind : Kind) :
    (kind.spec.inputs.all fun p => !p.multiple) = true := by
  cases kind <;> rfl

/-- Every input takes one connection at most. -/
theorem multiple_eq_false {kind : Kind} {key : String} {port : Port}
    (h : kind.input? key = some port) : port.multiple = false := by
  have hall := List.all_eq_true.1 (inputs_all_single kind) port (mem_inputs_of_input? h).1
  simpa using hall

theorem inputs_all_control (kind : Kind) :
    (kind.spec.inputs.all fun p => p.socket != .exec || p.key == "exec") = true := by
  cases kind <;> rfl

/-- Control enters by the `exec` input. -/
theorem eq_exec_of_input? {kind : Kind} {key : String} {port : Port}
    (h : kind.input? key = some port) (hs : port.socket = .exec) : key = "exec" := by
  obtain ⟨hmem, rfl⟩ := mem_inputs_of_input? h
  have hall := List.all_eq_true.1 (inputs_all_control kind) port hmem
  simpa [hs] using hall

theorem outputs_all_not_number (kind : Kind) :
    (kind.spec.outputs.all fun p => p.socket != .number) = true := by
  cases kind <;> rfl

theorem socket_ne_number_of_output? {kind : Kind} {key : String} {port : Port}
    (h : kind.output? key = some port) : port.socket ≠ .number := by
  have hall := List.all_eq_true.1 (outputs_all_not_number kind) port (mem_outputs_of_output? h).1
  simpa using hall

theorem inputs_all_price (kind : Kind) :
    (kind.spec.inputs.all fun p => p.key != "entryPrice" || p.socket == .number) = true := by
  cases kind <;> rfl

/-- An entry price is a number. -/
theorem socket_entryPrice {kind : Kind} {port : Port} (h : kind.input? "entryPrice" = some port) :
    port.socket = .number := by
  obtain ⟨hmem, hkey⟩ := mem_inputs_of_input? h
  have hall := List.all_eq_true.1 (inputs_all_price kind) port hmem
  simpa [hkey] using hall

/-! ## Values -/

/-- The output that carries the value of a node of a kind. -/
def value? : Kind → Option String
  | .strategyConfig => some "currentTimestamp"
  | .fetchShortlist => some "results"
  | .fetchShortlistPersistence => some "results"
  | .fetchCandles => some "candles"
  | .fetchQuote => some "quote"
  | .fetchDates => some "dates"
  | .fetchHolidays => some "holidays"
  | .placeOrder => none
  | .forEach => some "item"
  | .conditional => none

/-- The input that brings the value that a node of a kind works on. -/
def operand? : Kind → Option String
  | .fetchShortlist => some "datetime"
  | .fetchCandles => some "symbol"
  | .fetchQuote => some "symbol"
  | .placeOrder => some "nseSymbol"
  | .forEach => some "array"
  | .conditional => some "value"
  | _ => none

theorem outputs_all_value (kind : Kind) :
    (kind.spec.outputs.all fun p => p.socket == .exec || kind.value? == some p.key) = true := by
  cases kind <;> rfl

/-- An output that is no control output carries the value. -/
theorem value?_of_output? {kind : Kind} {key : String} {port : Port}
    (h : kind.output? key = some port) (hs : port.socket ≠ .exec) : kind.value? = some key := by
  obtain ⟨hmem, rfl⟩ := mem_outputs_of_output? h
  have hall := List.all_eq_true.1 (outputs_all_value kind) port hmem
  simpa [hs] using hall

theorem inputs_all_operand (kind : Kind) :
    (kind.spec.inputs.all fun p =>
      p.key == "exec" || p.key == "entryPrice" || kind.operand? == some p.key) = true := by
  cases kind <;> rfl

theorem operand?_of_input? {kind : Kind} {key : String} {port : Port}
    (h : kind.input? key = some port) (hexec : key ≠ "exec") (hprice : key ≠ "entryPrice") :
    kind.operand? = some key := by
  obtain ⟨hmem, rfl⟩ := mem_inputs_of_input? h
  have hall := List.all_eq_true.1 (inputs_all_operand kind) port hmem
  simpa [hexec, hprice] using hall

theorem ne_exec_of_operand? {kind : Kind} {key : String} (h : kind.operand? = some key) :
    key ≠ "exec" := by
  rintro rfl
  cases kind <;> simp [operand?] at h

theorem ports_all_distinct (kind : Kind) :
    (kind.spec.outputs.all fun o => kind.spec.inputs.all fun i =>
      !o.socket.compatible i.socket || i.socket == .exec) = true := by
  cases kind <;> rfl

/-- No value of a node fits an input of the same node. -/
theorem eq_exec_of_compatible_self {kind : Kind} {outKey inKey : String} {output input : Port}
    (hout : kind.output? outKey = some output) (hin : kind.input? inKey = some input)
    (hfit : output.socket.compatible input.socket = true) : input.socket = .exec := by
  have hall := List.all_eq_true.1 (ports_all_distinct kind) output (mem_outputs_of_output? hout).1
  have hinput := List.all_eq_true.1 hall input (mem_inputs_of_input? hin).1
  simpa [hfit] using hinput

/-- The kinds whose values fit what a node of a kind works on. -/
def feeders : Kind → List Kind
  | .fetchShortlist => [.strategyConfig, .forEach]
  | .fetchCandles => [.strategyConfig, .forEach]
  | .fetchQuote => [.strategyConfig, .forEach]
  | .placeOrder => [.strategyConfig, .forEach]
  | .forEach => [.fetchShortlist, .fetchShortlistPersistence]
  | .conditional => [.fetchQuote]
  | _ => []

theorem ports_all_feeders (source target : Kind) :
    (source.spec.outputs.all fun o => target.spec.inputs.all fun i =>
      !o.socket.compatible i.socket || i.socket == .exec || target.feeders.contains source) = true := by
  cases source <;> cases target <;> rfl

/-- A value comes from one of the kinds that fit. -/
theorem mem_feeders_of_compatible {source target : Kind} {outKey inKey : String} {output input : Port}
    (hout : source.output? outKey = some output) (hin : target.input? inKey = some input)
    (hfit : output.socket.compatible input.socket = true) (hne : input.socket ≠ .exec) :
    source ∈ target.feeders := by
  have hall := List.all_eq_true.1 (ports_all_feeders source target) output
    (mem_outputs_of_output? hout).1
  have hinput := List.all_eq_true.1 hall input (mem_inputs_of_input? hin).1
  simpa [hfit, hne] using hinput

end Kind

end TradeFlow
