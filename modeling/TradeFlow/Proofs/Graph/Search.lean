import TradeFlow.Proofs.Graph.WellFormed

/-!
Searching the control connections of a graph.

A search is at any moment described by the nodes that were visited, the nodes that wait, both with
their columns, and the pool of the nodes that were not reached. What is proved:

1. `search_invariant` and `searchAll_invariant`: what one step keeps is kept by a search, and by all
   searches of an arrangement one after the other.
2. `Graph.searched_perm`: no node is lost and none is reached twice.
3. `Graph.mem_pool_searched_iff`: the nodes that no control connection touches are left.
4. `Graph.columns_perm` and `Graph.exists_columns_eq_cons`: so every node gets one column, and the
   first one that is visited stands in the first column.
-/

namespace TradeFlow

theorem nodup_eraseDups (l : List String) : l.eraseDups.Nodup := by
  match l with
  | [] => exact List.nodup_nil
  | a :: l =>
    rw [List.eraseDups_cons, List.nodup_cons]
    refine ⟨?_, nodup_eraseDups _⟩
    rw [List.mem_eraseDups, List.mem_filter]
    rintro ⟨-, ha⟩
    simp at ha
termination_by l.length
decreasing_by exact Nat.lt_succ_of_le (List.length_filter_le _ _)

namespace Graph

variable {edges : List (String × String)} {pool reached order candidates : List String}
  {visited queue : List Columned} {id x : String} {column : Nat}

/-! ## The pool -/

theorem mem_freshTargets : x ∈ freshTargets edges pool id ↔ (id, x) ∈ edges ∧ x ∈ pool := by
  simp [freshTargets]

theorem nodup_freshTargets : (freshTargets edges pool id).Nodup :=
  (nodup_eraseDups _).filter _

theorem mem_drain : x ∈ drain pool reached ↔ x ∈ pool ∧ x ∉ reached := by
  simp [drain]

/-- What leaves the pool was in it. -/
theorem append_drain_perm (hpool : pool.Nodup) (hreached : reached.Nodup)
    (hsub : ∀ x ∈ reached, x ∈ pool) : (reached ++ drain pool reached).Perm pool := by
  have hnodup : (reached ++ drain pool reached).Nodup :=
    hreached.append (hpool.filter _) fun x hx hx' => (mem_drain.1 hx').2 hx
  rw [List.perm_ext_iff_of_nodup hnodup hpool]
  intro x
  rw [List.mem_append, mem_drain]
  by_cases hx : x ∈ reached
  · simp [hx, hsub x hx]
  · simp [hx]

/-! ## Steps -/

/-- A search keeps what is kept when the first node that waits is visited. -/
theorem search_invariant {P : List Columned → List Columned → List String → Prop}
    (visited : List Columned)
    (hstep : ∀ visited id column queue pool, P visited ((id, column) :: queue) pool →
      P (visited ++ [(id, column)])
        (queue ++ (freshTargets edges pool id).map (·, column + 1))
        (drain pool (freshTargets edges pool id)))
    (h : P visited queue pool) :
    P (visited ++ (search edges pool queue).1) [] (search edges pool queue).2 := by
  fun_induction search edges pool queue generalizing visited with
  | case1 pool =>
    rw [List.append_nil]
    exact h
  | case2 pool id column queue fresh rest =>
    rename_i ih
    have hnext := ih _ (hstep visited id column queue pool h)
    rw [List.append_assoc] at hnext
    exact hnext

theorem searchAll_cons_of_mem {state : List Columned × List String} (h : id ∈ state.2) :
    searchAll edges (id :: candidates) state =
      searchAll edges candidates
        (state.1 ++ (search edges (drain state.2 [id]) [(id, 0)]).1,
          (search edges (drain state.2 [id]) [(id, 0)]).2) := by
  obtain ⟨visited, pool⟩ := state
  have hcontains : pool.contains id = true := by simpa using h
  simp only [searchAll, List.foldl_cons, hcontains, if_true]

theorem searchAll_cons_of_not_mem {state : List Columned × List String} (h : id ∉ state.2) :
    searchAll edges (id :: candidates) state = searchAll edges candidates state := by
  obtain ⟨visited, pool⟩ := state
  have hcontains : pool.contains id = false := by simpa using h
  simp only [searchAll, List.foldl_cons, hcontains, Bool.false_eq_true, if_false]

/-- All searches keep what is kept when a search starts, and then at each of its steps. -/
theorem searchAll_invariant {P : List Columned → List Columned → List String → Prop}
    (hstart : ∀ visited, ∀ id ∈ candidates, ∀ pool, id ∈ pool → P visited [] pool →
      P visited [(id, 0)] (drain pool [id]))
    (hstep : ∀ visited id column queue pool, P visited ((id, column) :: queue) pool →
      P (visited ++ [(id, column)])
        (queue ++ (freshTargets edges pool id).map (·, column + 1))
        (drain pool (freshTargets edges pool id)))
    {state : List Columned × List String} (h : P state.1 [] state.2) :
    P (searchAll edges candidates state).1 [] (searchAll edges candidates state).2 := by
  induction candidates generalizing state with
  | nil => exact h
  | cons id candidates ih =>
    have hlater := fun visited id' hid' => hstart visited id' (List.mem_cons_of_mem id hid')
    by_cases hid : id ∈ state.2
    · rw [searchAll_cons_of_mem hid]
      exact ih hlater (search_invariant _ hstep (hstart _ id List.mem_cons_self _ hid h))
    · rw [searchAll_cons_of_not_mem hid]
      exact ih hlater h

/-- No candidate is left in the pool. -/
theorem not_mem_pool_searchAll {state : List Columned × List String} (h : id ∈ candidates) :
    id ∉ (searchAll edges candidates state).2 := by
  have hgone : ∀ (candidates : List String) (state : List Columned × List String), id ∉ state.2 →
      id ∉ (searchAll edges candidates state).2 := by
    intro candidates state
    refine searchAll_invariant (P := fun _ _ pool => id ∉ pool) ?_ ?_
    · exact fun _ _ _ pool _ hpool hid => hpool (mem_drain.1 hid).1
    · exact fun _ _ _ _ pool hpool hid => hpool (mem_drain.1 hid).1
  induction candidates generalizing state with
  | nil => cases h
  | cons first candidates ih =>
    rcases List.mem_cons.1 h with rfl | h
    · by_cases hid : id ∈ state.2
      · rw [searchAll_cons_of_mem hid]
        have hreached : id ∉ drain state.2 [id] := fun hid =>
          (mem_drain.1 hid).2 List.mem_cons_self
        exact hgone _ _ (search_invariant (P := fun _ _ pool => id ∉ pool) []
          (fun _ _ _ _ pool hpool hid => hpool (mem_drain.1 hid).1) hreached)
      · rw [searchAll_cons_of_not_mem hid]
        exact hgone _ _ hid
    · by_cases hfirst : first ∈ state.2
      · rw [searchAll_cons_of_mem hfirst]
        exact ih h
      · rw [searchAll_cons_of_not_mem hfirst]
        exact ih h

/-! ## What every search keeps -/

/-- No node was lost, and none was reached twice. -/
def Accounts (order : List String) (visited queue : List Columned) (pool : List String) : Prop :=
  (visited.map (·.1) ++ queue.map (·.1) ++ pool).Perm order

theorem Accounts.start (horder : order.Nodup) (hid : id ∈ pool) (h : Accounts order visited [] pool) :
    Accounts order visited [(id, 0)] (drain pool [id]) := by
  have hpool : pool.Nodup := (List.nodup_append.1 (h.nodup_iff.2 horder)).2.1
  have hmoved := append_drain_perm hpool (List.nodup_singleton id) (by simpa using hid)
  rw [Accounts, List.map_nil, List.append_nil] at h
  rw [Accounts, List.append_assoc]
  exact (hmoved.append_left _).trans h

theorem Accounts.step (horder : order.Nodup) (h : Accounts order visited ((id, column) :: queue) pool) :
    Accounts order (visited ++ [(id, column)])
      (queue ++ (freshTargets edges pool id).map (·, column + 1))
      (drain pool (freshTargets edges pool id)) := by
  have hpool : pool.Nodup := (List.nodup_append.1 (h.nodup_iff.2 horder)).2.1
  have hmoved : (freshTargets edges pool id ++ drain pool (freshTargets edges pool id)).Perm pool :=
    append_drain_perm hpool nodup_freshTargets fun x hx => (mem_freshTargets.1 hx).2
  have hids : ((freshTargets edges pool id).map (·, column + 1)).map (·.1) =
      freshTargets edges pool id := by
    rw [List.map_map]
    exact List.map_id _
  rw [Accounts, List.map_append, List.map_append, hids]
  simp only [List.append_assoc]
  rw [Accounts, List.map_cons, List.append_assoc] at h
  exact ((hmoved.append_left _).append_left _ |>.append_left _).trans h

/-! ## The searches of an arrangement -/

variable {g : Graph}

/-- A control connection touches the node. -/
def Controlled (g : Graph) (id : String) : Prop := ∃ e ∈ g.controlEdges, e.1 = id ∨ e.2 = id

/-- The nodes that control leaves but does not enter, in the order of the graph. -/
def starts (g : Graph) : List String :=
  g.order.filter fun id =>
    !(g.controlEdges.any (·.2 == id)) && g.controlEdges.any fun e => e.1 == id || e.2 == id

/-- The nodes that a control connection touches, in the order of the graph. -/
def controlNodes (g : Graph) : List String :=
  g.order.filter fun id => g.controlEdges.any fun e => e.1 == id || e.2 == id

/-- What was visited and what is left when all searches have ended. -/
def searched (g : Graph) : List Columned × List String :=
  searchAll g.controlEdges g.controlNodes (searchAll g.controlEdges g.starts ([], g.order))

/-- The columns of the nodes without control connections follow those of the searches. -/
theorem columns_eq (g : Graph) :
    g.columns = g.searched.2.foldl (fun visited id => visited ++ [(id, g.dataColumn visited id)])
      g.searched.1 := rfl

theorem mem_starts : id ∈ g.starts ↔
    id ∈ g.order ∧ g.Controlled id ∧ ∀ e ∈ g.controlEdges, e.2 ≠ id := by
  simp only [starts, Controlled, List.mem_filter, Bool.and_eq_true, Bool.not_eq_true',
    List.any_eq_true, List.any_eq_false, Bool.or_eq_true, beq_iff_eq]
  tauto

theorem mem_controlNodes : id ∈ g.controlNodes ↔ id ∈ g.order ∧ g.Controlled id := by
  simp [controlNodes, Controlled]

/-- The searches keep what is kept when a search starts at a node with control connections, and at
each of its steps. -/
theorem searched_invariant {P : List Columned → List Columned → List String → Prop}
    (hstart : ∀ visited id pool, id ∈ g.order → g.Controlled id → id ∈ pool → P visited [] pool →
      P visited [(id, 0)] (drain pool [id]))
    (hstep : ∀ visited id column queue pool, P visited ((id, column) :: queue) pool →
      P (visited ++ [(id, column)])
        (queue ++ (freshTargets g.controlEdges pool id).map (·, column + 1))
        (drain pool (freshTargets g.controlEdges pool id)))
    (h : P [] [] g.order) : P g.searched.1 [] g.searched.2 := by
  refine searchAll_invariant (fun visited id hid pool => ?_) hstep
    (searchAll_invariant (fun visited id hid pool => ?_) hstep h)
  · exact hstart visited id pool (mem_controlNodes.1 hid).1 (mem_controlNodes.1 hid).2
  · exact hstart visited id pool (mem_starts.1 hid).1 (mem_starts.1 hid).2.1

/-- The nodes that were visited and those that are left make up the graph. -/
theorem searched_perm (horder : g.order.Nodup) :
    (g.searched.1.map (·.1) ++ g.searched.2).Perm g.order := by
  have h : Accounts g.order g.searched.1 [] g.searched.2 :=
    searched_invariant (fun _ _ _ _ _ hid h => h.start horder hid) (fun _ _ _ _ _ h => h.step horder)
      (List.Perm.refl _)
  rwa [Accounts, List.map_nil, List.append_nil] at h

/-- What is left stands in the order of the graph. -/
theorem pool_searched_sublist (g : Graph) : g.searched.2.Sublist g.order :=
  searched_invariant (P := fun _ _ pool => pool.Sublist g.order)
    (fun _ _ _ _ _ _ h => List.filter_sublist.trans h)
    (fun _ _ _ _ _ h => List.filter_sublist.trans h) (List.Sublist.refl _)

/-- The nodes that no control connection touches are left. -/
theorem mem_pool_searched_iff : id ∈ g.searched.2 ↔ id ∈ g.order ∧ ¬ g.Controlled id := by
  constructor
  · intro h
    have horder := (pool_searched_sublist g).subset h
    exact ⟨horder, fun hc => not_mem_pool_searchAll (mem_controlNodes.2 ⟨horder, hc⟩) h⟩
  · rintro ⟨horder, hfree⟩
    refine searched_invariant (P := fun _ _ pool => id ∈ pool) ?_ ?_ horder
    · intro _ first pool _ hfirst _ hid
      refine mem_drain.2 ⟨hid, fun hmem => hfree ?_⟩
      rwa [List.mem_singleton.1 hmem]
    · intro _ source _ _ pool hid
      refine mem_drain.2 ⟨hid, fun hmem => hfree ?_⟩
      exact ⟨_, (mem_freshTargets.1 hmem).1, .inr rfl⟩

/-! ## Columns -/

theorem foldl_dataColumn_map_fst (g : Graph) (ids : List String) (visited : List Columned) :
    (ids.foldl (fun visited id => visited ++ [(id, g.dataColumn visited id)]) visited).map (·.1) =
      visited.map (·.1) ++ ids := by
  induction ids generalizing visited with
  | nil => simp
  | cons id ids ih =>
    rw [List.foldl_cons, ih]
    simp

/-- Every node gets one column. -/
theorem columns_perm (horder : g.order.Nodup) : (g.columns.map (·.1)).Perm g.order := by
  rw [columns_eq, foldl_dataColumn_map_fst]
  exact searched_perm horder

/-- Nothing or something in the first column comes first. -/
def StartsLeft (visited : List Columned) : Prop := ∀ p ∈ visited.head?, p.2 = 0

theorem StartsLeft.append {later : List Columned} (h : StartsLeft visited)
    (hlater : visited = [] → StartsLeft later) : StartsLeft (visited ++ later) := by
  cases visited with
  | nil => exact hlater rfl
  | cons p visited => exact h

theorem startsLeft_searched (g : Graph) : StartsLeft g.searched.1 := by
  have h : StartsLeft (g.searched.1 ++ []) := by
    refine searched_invariant (P := fun visited queue _ => StartsLeft (visited ++ queue)) ?_ ?_ ?_
    · intro visited id pool _ _ _ h
      rw [List.append_nil] at h
      exact h.append fun _ => by simp [StartsLeft]
    · intro visited id column queue pool h
      rw [← List.append_assoc, List.append_assoc visited]
      exact StartsLeft.append h fun hnil => by simp at hnil
    · simp [StartsLeft]
  rwa [List.append_nil] at h

theorem startsLeft_columns (g : Graph) : StartsLeft g.columns := by
  rw [columns_eq]
  have hfold : ∀ (ids : List String) (visited : List Columned), StartsLeft visited →
      StartsLeft (ids.foldl (fun visited id => visited ++ [(id, g.dataColumn visited id)])
        visited) := by
    intro ids
    induction ids with
    | nil => exact fun _ h => h
    | cons id ids ih =>
      intro visited h
      refine ih _ (h.append ?_)
      -- no node was visited before, so no consumer has a column
      rintro rfl
      simp only [StartsLeft, List.head?_cons, Option.mem_some_iff, forall_eq', dataColumn]
      split <;> simp
  exact hfold _ _ (startsLeft_searched g)

/-- The first node that is visited stands in the first column. -/
theorem exists_columns_eq_cons (horder : g.order.Nodup) (hne : g.nodes ≠ []) :
    ∃ id rest, g.columns = (id, 0) :: rest := by
  have hleft := startsLeft_columns g
  cases hcolumns : g.columns with
  | nil =>
    have hlength := (columns_perm horder).length_eq
    rw [hcolumns, order, List.length_map] at hlength
    exact absurd (List.length_eq_zero_iff.1 (by simpa using hlength.symm)) hne
  | cons p rest =>
    rw [hcolumns] at hleft
    obtain ⟨id, column⟩ := p
    obtain rfl : column = 0 := hleft _ rfl
    exact ⟨id, rest, rfl⟩

end Graph

end TradeFlow
