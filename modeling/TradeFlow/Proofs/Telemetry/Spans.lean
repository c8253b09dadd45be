import TradeFlow.Proofs.Compile.Walk
import TradeFlow.Telemetry.Span

/-!
Spans of a walk.

Spans are numbered as they start and listed as they end. On a walk, work on a node starts before and
ends after the work on the nodes that it owns, so a span follows the spans inside it in the list.
What is proved:

1. `Walk.endedSpans_events`: what ends on a walk is each node of the walk once, whatever is under way
   around it.
2. `Compilation.Follows.spans_eq`: the spans of a compilation are those of its walk, each with the
   place of the node around it, and the compilation itself is the last one.
3. `Walk.exists_parent`: the parent of a span is what was innermost under way when it started.
4. `Walk.events_split`: a walk that stops ends with the closings of the nodes that were under way,
   all with its error, and nothing else has an error.
-/

namespace TradeFlow

/-- The start of a span, if an event is one. -/
def Event.started? : Event → Option SpanSubject
  | .opened node kind => some (.node node kind)
  | _ => none

/-- The subject and the error of a span that ended with an error. -/
def Span.failure? (s : Span) : Option (SpanSubject × CompileError) :=
  s.error.map fun e => (s.subject, e)

/-- The nodes under way after a list of events, where `stack` holds those from before, the innermost
first. -/
def underWay (stack : List (String × Kind)) : List Event → List (String × Kind)
  | [] => stack
  | .opened node kind :: rest => underWay ((node, kind) :: stack) rest
  | .emitted _ _ _ :: rest => underWay stack rest
  | .closed _ :: rest => underWay stack.tail rest

theorem underWay_append (stack : List (String × Kind)) (xs ys : List Event) :
    underWay stack (xs ++ ys) = underWay (underWay stack xs) ys := by
  induction xs generalizing stack with
  | nil => rfl
  | cons e xs ih => cases e <;> exact ih _

namespace Walk

variable {w : Walk}

/-- The number of nodes on which work starts. -/
def size : Walk → Nat
  | ends => 0
  | stops _ => 0
  | silent _ rest => rest.size + 1
  | finished _ _ inner _ rest => inner.size + rest.size + 1
  | unfinished _ _ inner => inner.size + 1

/-- The spans of a walk in the order in which they end. The first one has the place `first`, and
`parent` is the place of the span around the walk. -/
def spans (first parent : Nat) : Walk → List Span
  | ends => []
  | stops _ => []
  | silent node rest => ⟨.node node .strategyConfig, some parent, none⟩ :: rest.spans (first + 1) parent
  | finished node kind inner _ rest =>
    inner.spans first (first + inner.size) ++
      ⟨.node node kind, some parent, none⟩ :: rest.spans (first + inner.size + 1) parent
  | unfinished node kind inner =>
    inner.spans first (first + inner.size) ++ [⟨.node node kind, some parent, inner.error?⟩]

@[simp] theorem length_spans (w : Walk) (first parent : Nat) :
    (w.spans first parent).length = w.size := by
  induction w generalizing first parent with
  | ends => rfl
  | stops e => rfl
  | silent node rest ih => simp [spans, size, ih]
  | finished node kind inner code rest ihinner ih =>
    simp [spans, size, ihinner, ih]
    omega
  | unfinished node kind inner ih => simp [spans, size, ih]

/-! ## Numbers -/

/-- The spans of a walk with their numbers. The first one to start has the number `started`, and
`parent` is the number of the span around the walk. -/
def ended (started parent : Nat) : Walk → List EndedSpan
  | ends => []
  | stops _ => []
  | silent node rest =>
    ⟨started, parent, node, .strategyConfig, none⟩ :: rest.ended (started + 1) parent
  | finished node kind inner _ rest =>
    inner.ended (started + 1) started ++
      ⟨started, parent, node, kind, none⟩ :: rest.ended (started + inner.size + 1) parent
  | unfinished node kind inner =>
    inner.ended (started + 1) started ++ [⟨started, parent, node, kind, inner.error?⟩]

@[simp] theorem length_ended (w : Walk) (started parent : Nat) :
    (w.ended started parent).length = w.size := by
  induction w generalizing started parent with
  | ends => rfl
  | stops e => rfl
  | silent node rest ih => simp [ended, size, ih]
  | finished node kind inner code rest ihinner ih =>
    simp [ended, size, ihinner, ih]
    omega
  | unfinished node kind inner ih => simp [ended, size, ih]

/-- The number of the innermost span under way; the compilation has number zero. -/
def innermost (stack : List OpenSpan) : Nat := (stack.head?.map (·.number)).getD 0

/-- On a walk exactly its own nodes end, inside of what is under way around it. -/
theorem endedSpans_events (w : Walk) (started : Nat) (stack : List OpenSpan) (more : List Event) :
    endedSpans started stack (w.events ++ more) =
      w.ended started (innermost stack) ++ endedSpans (started + w.size) stack more := by
  induction w generalizing started stack more with
  | ends => rfl
  | stops e => rfl
  | silent node rest ih =>
    simp only [events, ended, size, List.cons_append, endedSpans, ih]
    rw [Nat.add_right_comm]
    rfl
  | finished node kind inner code rest ihinner ih =>
    simp only [events, ended, size, List.cons_append, List.append_assoc, endedSpans, ihinner, ih]
    rw [show started + 1 + inner.size + rest.size = started + (inner.size + rest.size + 1) by omega,
      Nat.add_right_comm started 1]
    rfl
  | unfinished node kind inner ih =>
    simp only [events, ended, size, List.cons_append, List.append_assoc, endedSpans, ih]
    rw [Nat.add_right_comm started 1]
    rfl

/-- The nodes of a walk have the numbers from the first one on, each once. -/
theorem numbers_perm (w : Walk) (started parent : Nat) :
    ((w.ended started parent).map (·.number)).Perm (List.range' started w.size) := by
  induction w generalizing started parent with
  | ends => exact .nil
  | stops e => exact .nil
  | silent node rest ih => exact (ih (started + 1) parent).cons started
  | finished node kind inner code rest ihinner ih =>
    rw [ended, size, List.range'_succ, Nat.add_right_comm started, ← List.range'_append_1,
      List.map_append]
    exact List.perm_middle.trans (((ihinner _ _).append (ih _ _)).cons started)
  | unfinished node kind inner ih =>
    rw [ended, size, List.range'_succ, List.map_append]
    exact (List.perm_append_singleton _ _).trans ((ih _ _).cons started)

/-- The place of a number in the list of its walk. -/
theorem findIdx?_number {started parent i : Nat} {e : EndedSpan}
    (h : (w.ended started parent)[i]? = some e) :
    (w.ended started parent).findIdx? (·.number == e.number) = some i := by
  obtain ⟨hi, rfl⟩ := List.getElem?_eq_some_iff.1 h
  have hnodup := (w.numbers_perm started parent).nodup_iff.2 List.nodup_range'
  rw [List.findIdx?_eq_some_iff_getElem]
  refine ⟨hi, by simp, fun j hj heq => ?_⟩
  have hne := List.pairwise_iff_getElem.1 hnodup j i (by simpa using Nat.lt_trans hj hi) (by simpa using hi) hj
  simp only [List.getElem_map] at hne
  exact hne (by simpa using heq)

theorem findIdx?_zero (w : Walk) (started parent : Nat) (h : 0 < started) :
    (w.ended started parent).findIdx? (·.number == 0) = none := by
  rw [List.findIdx?_eq_none_iff]
  intro e he
  have hmem := (w.numbers_perm started parent).mem_iff.1 (List.mem_map_of_mem he)
  have := (List.mem_range'_1.1 hmem).1
  simp only [beq_eq_false_iff_ne]
  omega

/-- The spans of a walk are those with numbers, each number replaced by a place. -/
theorem map_ended {place : Nat → Nat} (started parent first : Nat)
    (hplace : ∀ i e, (w.ended started parent)[i]? = some e → place e.number = first + i) :
    (w.ended started parent).map (fun e => ⟨.node e.node e.kind, some (place e.parent), e.error⟩) =
      w.spans first (place parent) := by
  induction w generalizing started parent first with
  | ends => rfl
  | stops e => rfl
  | silent node rest ih =>
    rw [ended, spans, List.map_cons, ih _ _ (first + 1) fun i e h => ?_]
    rw [hplace (i + 1) e h]
    omega
  | finished node kind inner code rest ihinner ih =>
    have hself : place started = first + inner.size :=
      hplace inner.size ⟨started, parent, node, kind, none⟩ (by simp [ended])
    rw [ended, spans, List.map_append, List.map_cons, ← hself,
      ihinner _ _ first fun i e h => ?_,
      ih _ _ (first + inner.size + 1) fun i e h => ?_, hself]
    · rw [hplace (inner.size + 1 + i) e]
      · omega
      · rw [ended, List.getElem?_append_right (by simp; omega)]
        simpa [Nat.add_assoc, Nat.add_comm 1] using h
    · refine hplace i e ?_
      rw [ended, List.getElem?_append_left ?_, h]
      exact (List.getElem?_eq_some_iff.1 h).1
  | unfinished node kind inner ih =>
    have hself : place started = first + inner.size :=
      hplace inner.size ⟨started, parent, node, kind, inner.error?⟩ (by simp [ended])
    rw [ended, spans, List.map_append, ← hself, ih _ _ first fun i e h => ?_]
    · rfl
    · refine hplace i e ?_
      rw [ended, List.getElem?_append_left ?_, h]
      exact (List.getElem?_eq_some_iff.1 h).1

/-! ## Starts -/

/-- Every node on which work starts has one span. -/
theorem started_perm (w : Walk) (first parent : Nat) :
    (w.events.filterMap Event.started?).Perm ((w.spans first parent).map (·.subject)) := by
  induction w generalizing first parent with
  | ends => exact .nil
  | stops e => exact .nil
  | silent node rest ih => exact (ih (first + 1) parent).cons _
  | finished node kind inner code rest ihinner ih =>
    rw [events, spans, List.map_append, List.filterMap_cons, List.filterMap_append]
    exact (((ihinner _ _).append (ih _ _)).cons _).trans List.perm_middle.symm
  | unfinished node kind inner ih =>
    rw [events, spans, List.map_append, List.filterMap_cons, List.filterMap_append]
    simp only [Event.started?, List.filterMap_cons, List.filterMap_nil, List.append_nil]
    exact ((ih _ _).cons _).trans (List.perm_append_singleton _ _).symm

/-! ## Errors -/

theorem pending_eq_nil (hw : w.Proper) (h : w.error? = none) : w.pending = [] := by
  induction w with
  | ends => rfl
  | stops e => cases h
  | silent node rest ih => exact ih hw h
  | finished node kind inner code rest _ ih => exact ih hw.2.2 h
  | unfinished node kind inner =>
    rw [error?] at h
    simp [Proper, h] at hw

/-- A walk that stops ends with the closings of what is under way at its error. Nothing before them
has an error. -/
theorem events_split (hw : w.Proper) :
    ∃ before, w.events = before ++ List.replicate w.pending.length (.closed w.error?) ∧
      (∀ error, .closed error ∈ before → error = none) ∧
      ∀ stack, underWay stack before = w.pending ++ stack := by
  induction w with
  | ends => exact ⟨[], rfl, by simp, fun _ => rfl⟩
  | stops e => exact ⟨[], rfl, by simp, fun _ => rfl⟩
  | silent node rest ih =>
    obtain ⟨before, hevents, hnone, hstack⟩ := ih hw
    refine ⟨.opened node .strategyConfig :: .closed none :: before, ?_, ?_, fun stack => ?_⟩
    · rw [events, hevents]
      rfl
    · simpa using hnone
    · exact hstack stack
  | finished node kind inner code rest ihinner ih =>
    obtain ⟨hinner, hproper, hrest⟩ := hw
    obtain ⟨before, hevents, hnone, hstack⟩ := ihinner hproper
    obtain ⟨before', hevents', hnone', hstack'⟩ := ih hrest
    rw [pending_eq_nil hproper hinner, List.length_nil, List.replicate_zero, List.append_nil]
      at hevents
    refine ⟨.opened node kind :: (before ++ .emitted node kind (lineCount code) :: .closed none
      :: before'), ?_, ?_, fun stack => ?_⟩
    · rw [events, hevents, hevents']
      simp [pending, error?]
    · intro error h
      simp only [List.mem_cons, List.mem_append, reduceCtorEq, false_or, Event.closed.injEq] at h
      rcases h with h | rfl | h
      · exact hnone error h
      · rfl
      · exact hnone' error h
    · rw [underWay, underWay_append, hstack, pending_eq_nil hproper hinner]
      exact hstack' stack
  | unfinished node kind inner ih =>
    obtain ⟨before, hevents, hnone, hstack⟩ := ih hw.2
    refine ⟨.opened node kind :: before, ?_, by simpa using hnone, fun stack => ?_⟩
    · rw [events, hevents, pending, List.length_append, List.length_singleton,
        List.replicate_succ', error?]
      simp
    · rw [underWay, hstack, pending]
      simp

/-- After a walk to its end the same nodes are under way as before. -/
theorem underWay_events (hw : w.Proper) (h : w.error? = none) (stack : List (String × Kind)) :
    underWay stack w.events = stack := by
  obtain ⟨before, hevents, -, hstack⟩ := events_split hw
  rw [pending_eq_nil hw h] at hevents hstack
  rw [hevents]
  simpa using hstack stack

/-- The spans with an error are those of the nodes that were under way at the error. -/
theorem failures_spans (hw : w.Proper) (first parent : Nat) :
    (w.spans first parent).filterMap Span.failure? =
      w.pending.filterMap fun (node, kind) => w.error?.map fun e => (.node node kind, e) := by
  induction w generalizing first parent with
  | ends => rfl
  | stops e => rfl
  | silent node rest ih => exact ih hw _ _
  | finished node kind inner code rest ihinner ih =>
    obtain ⟨hinner, hproper, hrest⟩ := hw
    rw [spans, List.filterMap_append, ihinner hproper, pending_eq_nil hproper hinner]
    exact ih hrest _ _
  | unfinished node kind inner ih =>
    obtain ⟨hsome, hproper⟩ := hw
    rw [spans, List.filterMap_append, ih hproper, pending, List.filterMap_append, error?]
    rfl

/-! ## Parents -/

/-- What a span that starts now is inside of. -/
def enclosing (stack : List (String × Kind)) : SpanSubject :=
  match stack with
  | [] => .compilation
  | (node, kind) :: _ => .node node kind

theorem exists_tail_of_ne {e x : Event} {events before after : List Event} (hne : e ≠ x)
    (h : e :: events = before ++ x :: after) :
    ∃ rest, before = e :: rest ∧ events = rest ++ x :: after := by
  rcases List.cons_eq_append_iff.1 h with ⟨-, hhead⟩ | htail
  · cases hhead
    exact absurd rfl hne
  · exact htail

/-- Where a node starts that others stand in front of: it is one of them or one of the rest. -/
theorem start_cases {first : Walk} {more before after : List Event} {x : Event}
    (hmore : more.head? ≠ some x) (h : first.events ++ more = before ++ x :: after) :
    (∃ after', first.events = before ++ x :: after') ∨
      ∃ rest, before = first.events ++ rest ∧ more = rest ++ x :: after := by
  rcases List.append_eq_append_iff.1 h with ⟨rest, hbefore, htail⟩ | ⟨cut, hevents, hcut⟩
  · exact .inr ⟨rest, hbefore, htail⟩
  · cases cut with
    | nil =>
      rw [List.nil_append] at hcut
      rw [← hcut] at hmore
      exact absurd rfl hmore
    | cons e cut =>
      cases hcut
      exact .inl ⟨cut, hevents⟩

/-- The parent of a span is what was innermost under way when it started. Here `subject?` says what
stands at a place of the whole list. -/
theorem exists_parent (hw : w.Proper) (subject? : Nat → Option SpanSubject) (first parent : Nat)
    (stack : List (String × Kind))
    (hsubject : ∀ (i : Nat) (s : Span), (w.spans first parent)[i]? = some s →
      subject? (first + i) = some s.subject)
    (hparent : subject? parent = some (enclosing stack))
    {before after : List Event} {node : String} {kind : Kind}
    (h : w.events = before ++ .opened node kind :: after) :
    ∃ (i j : Nat) (error : Option CompileError),
      (w.spans first parent)[i]? = some ⟨.node node kind, some j, error⟩ ∧
      subject? j = some (enclosing (underWay stack before)) := by
  induction w generalizing first parent stack before after with
  | ends => simp [events] at h
  | stops e => simp [events] at h
  | silent n rest ih =>
    rw [events] at h
    rcases List.cons_eq_append_iff.1 h with ⟨rfl, hopened⟩ | ⟨before, rfl, htail⟩
    · cases hopened
      exact ⟨0, parent, none, rfl, hparent⟩
    obtain ⟨before, rfl, hrest⟩ := exists_tail_of_ne (by simp) htail
    obtain ⟨i, j, error, hi, hj⟩ := ih hw (first + 1) parent stack
      (fun i s hs => by
        rw [Nat.add_assoc, Nat.add_comm 1]
        exact hsubject (i + 1) s hs) hparent hrest
    exact ⟨i + 1, j, error, hi, hj⟩
  | finished n k inner code rest ihinner ih =>
    obtain ⟨hnone, hproper, hproper'⟩ := hw
    rw [events] at h
    rcases List.cons_eq_append_iff.1 h with ⟨rfl, hopened⟩ | ⟨before, rfl, htail⟩
    · cases hopened
      exact ⟨inner.size, parent, none, by simp [spans], hparent⟩
    rcases start_cases (by simp) htail with ⟨after', hinner⟩ | ⟨before, rfl, hcode⟩
    · have hplace : ∀ (i : Nat) (s : Span), (inner.spans first (first + inner.size))[i]? = some s →
          (spans first parent (.finished n k inner code rest))[i]? = some s := by
        intro i s hs
        rw [spans, List.getElem?_append_left (List.getElem?_eq_some_iff.1 hs).1, hs]
      have hself : subject? (first + inner.size) = some (.node n k) :=
        hsubject inner.size ⟨.node n k, some parent, none⟩ (by simp [spans])
      obtain ⟨i, j, error, hi, hj⟩ := ihinner hproper first _ ((n, k) :: stack)
        (fun i s hs => hsubject i s (hplace i s hs)) hself hinner
      exact ⟨i, j, error, hplace i _ hi, hj⟩
    · obtain ⟨before, rfl, hend⟩ := exists_tail_of_ne (by simp) hcode
      obtain ⟨before, rfl, hrest⟩ := exists_tail_of_ne (by simp) hend
      have hplace : ∀ (i : Nat) (s : Span), (rest.spans (first + inner.size + 1) parent)[i]? = some s →
          (spans first parent (.finished n k inner code rest))[inner.size + (i + 1)]? = some s := by
        intro i s hs
        rw [spans, List.getElem?_append_right (by simp), length_spans, Nat.add_sub_cancel_left,
          List.getElem?_cons_succ, hs]
      obtain ⟨i, j, error, hi, hj⟩ := ih hproper' _ _ stack (fun i s hs => by
        rw [← hsubject _ s (hplace i s hs)]
        congr 1
        omega) hparent hrest
      refine ⟨inner.size + (i + 1), j, error, hplace i _ hi, ?_⟩
      rw [underWay, underWay_append, underWay_events hproper hnone]
      exact hj
  | unfinished n k inner ih =>
    rw [events] at h
    rcases List.cons_eq_append_iff.1 h with ⟨rfl, hopened⟩ | ⟨before, rfl, htail⟩
    · cases hopened
      exact ⟨inner.size, parent, inner.error?, by simp [spans], hparent⟩
    rcases start_cases (by simp) htail with ⟨after', hinner⟩ | ⟨before, rfl, hclosed⟩
    · have hplace : ∀ (i : Nat) (s : Span), (inner.spans first (first + inner.size))[i]? = some s →
          (spans first parent (.unfinished n k inner))[i]? = some s := by
        intro i s hs
        rw [spans, List.getElem?_append_left (List.getElem?_eq_some_iff.1 hs).1, hs]
      have hself : subject? (first + inner.size) = some (.node n k) :=
        hsubject inner.size ⟨.node n k, some parent, inner.error?⟩ (by simp [spans])
      obtain ⟨i, j, error, hi, hj⟩ := ih hw.2 first _ ((n, k) :: stack)
        (fun i s hs => hsubject i s (hplace i s hs)) hself hinner
      exact ⟨i, j, error, hplace i _ hi, hj⟩
    · obtain ⟨before, rfl, hnil⟩ := exists_tail_of_ne (by simp) hclosed
      simp at hnil

end Walk

/-! ## Compilations -/

namespace Compilation

variable {c : Compilation} {w : Walk}

/-- The spans of a compilation are those of its walk, inside of the compilation itself. -/
theorem Follows.spans_eq (h : c.Follows w) :
    c.spans = w.spans 0 w.size ++ [⟨.compilation, none, c.error?⟩] := by
  have hended : endedSpans 1 [] c.events = w.ended 1 0 := by
    have := w.endedSpans_events 1 [] []
    rw [List.append_nil] at this
    rw [h.events, this]
    exact List.append_nil _
  let place := fun number =>
    ((w.ended 1 0).findIdx? (·.number == number)).getD (w.ended 1 0).length
  have hplace : ∀ i e, (w.ended 1 0)[i]? = some e → place e.number = 0 + i := by
    intro i e he
    simp [place, w.findIdx?_number he]
  have hzero : place 0 = w.size := by
    simp [place, w.findIdx?_zero 1 0 Nat.one_pos]
  simp only [Compilation.spans, hended]
  rw [← hzero, ← Walk.map_ended 1 0 0 hplace]

/-- The parent of every span is what was innermost under way when it started, the compilation if no
node was. -/
theorem Follows.exists_parent (h : c.Follows w) {before after : List Event} {node : String}
    {kind : Kind} (hevents : c.events = before ++ .opened node kind :: after) :
    ∃ (i j : Nat) (error : Option CompileError),
      c.spans[i]? = some ⟨.node node kind, some j, error⟩ ∧
      c.spans[j]?.map (·.subject) = some (Walk.enclosing (underWay [] before)) := by
  have hplace : ∀ (i : Nat) (s : Span), (w.spans 0 w.size)[i]? = some s → c.spans[i]? = some s := by
    intro i s hs
    rw [h.spans_eq, List.getElem?_append_left (List.getElem?_eq_some_iff.1 hs).1, hs]
  rw [h.events] at hevents
  obtain ⟨i, j, error, hi, hj⟩ := Walk.exists_parent h.proper
    (fun i => c.spans[i]?.map (·.subject)) 0 w.size []
    (fun i s hs => by rw [Nat.zero_add, hplace i s hs]; rfl)
    (by rw [h.spans_eq, List.getElem?_append_right (by simp)]; simp [Walk.enclosing]) hevents
  exact ⟨i, j, error, hplace i _ hi, hj⟩

end Compilation

end TradeFlow
