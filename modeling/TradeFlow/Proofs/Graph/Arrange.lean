import TradeFlow.Proofs.Graph.Extent
import TradeFlow.Proofs.Graph.Search
import Mathlib.Algebra.Order.Ring.Rat
import Mathlib.Data.Finset.Max
import Mathlib.Data.List.Pairwise
import Mathlib.Data.List.Permutation
import Mathlib.Data.Nat.Cast.Order.Ring
import Mathlib.Order.CompletePartialOrder
import Mathlib.Order.Interval.Set.Basic

/-!
Arranging a graph.

The nodes are stacked in columns in the order in which they were visited. A column is wider than every
node, and a node is followed in its column by a gap, so no two nodes get into touch. What is proved:

1. `Graph.stack_pairwise`: of two nodes that are placed, one stands in another column or above the
   other one.
2. `Graph.WellFormed.arrange_eq`: arranging gives every node its place and changes nothing else.
3. `Graph.WellFormed.disjoint_areas`: the areas that two nodes cover are disjoint.
4. `Graph.WellFormed.arrange_arrange`: a second arrangement changes nothing.
5. `Graph.WellFormed.extent_arrange`: the extent starts at the origin and is the least box around all
   nodes.
-/

namespace TradeFlow

/-- The position of a corner in whole canvas units. -/
def Position.whole (corner : Nat × Nat) : Position := ⟨.ofNat corner.1, .ofNat corner.2⟩

@[simp] theorem Position.x_whole (corner : Nat × Nat) :
    (Position.whole corner).x = .ofNat corner.1 := rfl

@[simp] theorem Position.y_whole (corner : Nat × Nat) :
    (Position.whole corner).y = .ofNat corner.2 := rfl

/-- The node at another position. -/
def Node.moveTo (n : Node) (p : Position) : Node := { n with position := p }

namespace Node

variable (n : Node) (p q : Position)

@[simp] theorem id_moveTo : (n.moveTo p).id = n.id := rfl

@[simp] theorem config_moveTo : (n.moveTo p).config = n.config := rfl

@[simp] theorem kind?_moveTo : (n.moveTo p).kind? = n.kind? := rfl

@[simp] theorem position_moveTo : (n.moveTo p).position = p := rfl

@[simp] theorem moveTo_moveTo : (n.moveTo p).moveTo q = n.moveTo q := rfl

end Node

/-- The closed rectangle that a node of a kind covers when its upper left corner is given. -/
def Kind.area (kind : Kind) (corner : Nat × Nat) : Set (ℚ × ℚ) :=
  Set.Icc (corner.1, corner.2) (corner.1 + kind.spec.width, corner.2 + kind.spec.height)

namespace Graph

/-- What the nodes of a graph cover together when their upper left corners are given. -/
def covered (g : Graph) (corner : String → Nat × Nat) : Set (ℚ × ℚ) :=
  {p | ∃ n ∈ g.nodes, ∃ kind ∈ n.kind?, p ∈ kind.area (corner n.id)}

/-- The rectangle between two corners contains all points, and every such rectangle contains it. -/
def IsLeastBox (points : Set (ℚ × ℚ)) (low high : ℚ × ℚ) : Prop :=
  points ⊆ Set.Icc low high ∧
    ∀ low' high', points ⊆ Set.Icc low' high' → Set.Icc low high ⊆ Set.Icc low' high'

/-- The corner that an arrangement chooses for the node with an id. -/
def corner (g : Graph) (id : String) : Nat × Nat := (g.placements.lookup id).getD (0, 0)

variable {g : Graph} {placed rest : List Columned} {id : String}

/-! ## Stacks -/

/-- The slots that are taken in a column. -/
def taken (g : Graph) (placed : List Columned) (column : Nat) : Nat :=
  ((placed.filter (·.2 == column)).map fun p => g.slotHeight p.1).sum

theorem stack_cons (id : String) (column : Nat) (placed rest : List Columned) :
    g.stack placed ((id, column) :: rest) =
      (id, column * columnWidth, g.taken placed column) ::
        g.stack (placed ++ [(id, column)]) rest :=
  rfl

theorem stack_map_fst (placed rest : List Columned) :
    (g.stack placed rest).map (·.1) = rest.map (·.1) := by
  induction rest generalizing placed with
  | nil => rfl
  | cons p rest ih =>
    obtain ⟨id, column⟩ := p
    rw [stack_cons, List.map_cons, List.map_cons, ih]

theorem taken_append (placed later : List Columned) (column : Nat) :
    g.taken (placed ++ later) column = g.taken placed column + g.taken later column := by
  simp [taken]

/-- A node stands in its column below the slots that were taken before. -/
theorem exists_column_of_mem_stack {e : String × Nat × Nat} (h : e ∈ g.stack placed rest) :
    ∃ column, (e.1, column) ∈ rest ∧ e.2.1 = column * columnWidth ∧
      g.taken placed column ≤ e.2.2 := by
  induction rest generalizing placed with
  | nil => cases h
  | cons p rest ih =>
    obtain ⟨id, column⟩ := p
    rw [stack_cons] at h
    rcases List.mem_cons.1 h with rfl | h
    · exact ⟨column, List.mem_cons_self, rfl, le_rfl⟩
    · obtain ⟨column', hmem, hx, hy⟩ := ih h
      rw [taken_append] at hy
      exact ⟨column', List.mem_cons_of_mem _ hmem, hx, by omega⟩

/-- The first node stands in another column than the second one, or above it with a gap. -/
def Clear (g : Graph) (e f : String × Nat × Nat) : Prop :=
  e.2.1 + columnWidth ≤ f.2.1 ∨ f.2.1 + columnWidth ≤ e.2.1 ∨ e.2.2 + g.slotHeight e.1 ≤ f.2.2

theorem stack_pairwise (placed rest : List Columned) : (g.stack placed rest).Pairwise g.Clear := by
  induction rest generalizing placed with
  | nil => exact .nil
  | cons p rest ih =>
    obtain ⟨id, column⟩ := p
    rw [stack_cons]
    refine .cons (fun f hf => ?_) (ih _)
    obtain ⟨column', -, hx, hy⟩ := exists_column_of_mem_stack hf
    rw [taken_append] at hy
    rcases lt_trichotomy column column' with hlt | rfl | hlt
    · have := Nat.mul_le_mul_right columnWidth hlt
      rw [Nat.succ_mul, ← hx] at this
      exact .inl this
    · -- the slot of the first node is taken in their common column
      have hslot : g.taken [(id, column)] column = g.slotHeight id := by simp [taken]
      rw [hslot] at hy
      exact .inr (.inr hy)
    · have := Nat.mul_le_mul_right columnWidth hlt
      rw [Nat.succ_mul, ← hx] at this
      exact .inr (.inl this)

/-! ## Places -/

theorem lookup_of_mem {α : Type} {l : List (String × α)} (hl : (l.map (·.1)).Nodup) {id : String}
    {a : α} (h : (id, a) ∈ l) : l.lookup id = some a := by
  induction l with
  | nil => cases h
  | cons e l ih =>
    obtain ⟨key, b⟩ := e
    rw [List.map_cons, List.nodup_cons] at hl
    rw [List.lookup_cons]
    rcases List.mem_cons.1 h with heq | h
    · cases heq
      rw [beq_self_eq_true]
    · have hne : id ≠ key := fun he => hl.1 (he ▸ List.mem_map.2 ⟨_, h, rfl⟩)
      rw [beq_false_of_ne hne]
      exact ih hl.2 h

theorem placements_map_fst (g : Graph) : g.placements.map (·.1) = g.columns.map (·.1) :=
  stack_map_fst [] g.columns

/-- Every node is placed exactly once. -/
theorem placements_perm (horder : g.order.Nodup) : (g.placements.map (·.1)).Perm g.order := by
  rw [placements_map_fst]
  exact columns_perm horder

theorem lookup_placements (horder : g.order.Nodup) (hid : id ∈ g.order) :
    g.placements.lookup id = some (g.corner id) := by
  obtain ⟨⟨key, place⟩, hmem, rfl⟩ := List.mem_map.1 ((placements_perm horder).mem_iff.2 hid)
  have hfound := lookup_of_mem ((placements_perm horder).nodup_iff.2 horder) hmem
  rw [corner, hfound]
  rfl

theorem mem_placements (horder : g.order.Nodup) (hid : id ∈ g.order) :
    (id, g.corner id) ∈ g.placements := by
  obtain ⟨⟨key, place⟩, hmem, rfl⟩ := List.mem_map.1 ((placements_perm horder).mem_iff.2 hid)
  have hfound := lookup_of_mem ((placements_perm horder).nodup_iff.2 horder) hmem
  rw [corner, hfound]
  exact hmem

/-- The corner of a node lies at the left edge of its column. -/
theorem corner_fst_of_mem_columns (horder : g.order.Nodup) {column : Nat}
    (h : (id, column) ∈ g.columns) : (g.corner id).1 = column * columnWidth := by
  have hnodup : (g.columns.map (·.1)).Nodup := (columns_perm horder).nodup_iff.2 horder
  have hid : id ∈ g.order := (columns_perm horder).mem_iff.1 (List.mem_map_of_mem h)
  obtain ⟨column', hmem, hx, -⟩ := exists_column_of_mem_stack (mem_placements horder hid)
  have hsame := (lookup_of_mem hnodup hmem).symm.trans (lookup_of_mem hnodup h)
  rw [hx, Option.some.inj hsame]

/-- One node stands at the origin. -/
theorem exists_corner_eq_zero (horder : g.order.Nodup) (hne : g.nodes ≠ []) :
    ∃ n ∈ g.nodes, g.corner n.id = (0, 0) := by
  obtain ⟨id, rest, hcolumns⟩ := exists_columns_eq_cons horder hne
  have hfirst : (id, 0, 0) ∈ g.placements := by
    rw [placements, hcolumns, stack_cons]
    exact List.mem_cons_self
  have hfound := lookup_of_mem ((placements_perm horder).nodup_iff.2 horder) hfirst
  obtain ⟨n, hn, rfl⟩ := List.mem_map.1
    ((placements_perm horder).mem_iff.1 (List.mem_map_of_mem hfirst))
  exact ⟨n, hn, by rw [corner, hfound]; rfl⟩

/-! ## The same nodes at other positions -/

section Moved

variable {f : Node → Node} (hf : ∀ n, (f n).id = n.id ∧ (f n).config = n.config)

include hf

theorem isControl_moved (c : Connection) :
    isControl { g with nodes := g.nodes.map f } c = g.isControl c := by
  have hsource := node?_map (g := g) (fun n => (hf n).1) c.source
  simp only [isControl, hsource]
  cases g.node? c.source with
  | none => rfl
  | some n => simp only [Option.map_some, Option.bind_some, Node.output?, Node.kind?, (hf n).2]

/-- The places do not depend on where nodes stood before. -/
theorem placements_moved : placements { g with nodes := g.nodes.map f } = g.placements := by
  have hcontrol : isControl { g with nodes := g.nodes.map f } = g.isControl :=
    funext fun c => isControl_moved hf c
  have hedges : controlEdges { g with nodes := g.nodes.map f } = g.controlEdges := by
    rw [controlEdges, controlEdges, hcontrol]
  have hids : (g.nodes.map f).map (·.id) = g.nodes.map (·.id) := by
    simp [Function.comp_def, (hf _).1]
  have hcolumns : columns { g with nodes := g.nodes.map f } = g.columns := by
    simp only [columns, hedges, hids]
    rfl
  have hslot : slotHeight { g with nodes := g.nodes.map f } = g.slotHeight := by
    funext id
    have hnode := node?_map (g := g) (fun n => (hf n).1) id
    simp only [slotHeight, hnode]
    cases g.node? id with
    | none => rfl
    | some n => simp only [Option.map_some, Option.bind_some, Node.kind?, (hf n).2]
  have htaken : taken { g with nodes := g.nodes.map f } = g.taken := by
    funext placed column
    rw [taken, taken, hslot]
  have hstack : ∀ placed rest,
      stack { g with nodes := g.nodes.map f } placed rest = g.stack placed rest := by
    intro placed rest
    induction rest generalizing placed with
    | nil => rfl
    | cons p rest ih =>
      obtain ⟨id, column⟩ := p
      rw [stack_cons, stack_cons, ih, htaken]
  rw [placements, placements, hcolumns, hstack]

end Moved

/-! ## Arrangements -/

/-- The node at its place. -/
def settle (g : Graph) (n : Node) : Node := n.moveTo (.whole (g.corner n.id))

/-- Where a node stands already, it stays. -/
theorem settle_settle {g' : Graph} (h : g'.corner = g.corner) (n : Node) :
    g'.settle (g.settle n) = g.settle n := by
  rw [settle, h, settle, Node.id_moveTo, Node.moveTo_moveTo]

namespace WellFormed

theorem isBare_eq_false (h : g.WellFormed) (id : String) : g.isBare id = false := by
  unfold isBare
  cases hn : g.node? id with
  | none => rfl
  | some n =>
    obtain ⟨s, hs⟩ := h.isSealed n (node?_eq_some hn).1
    simp [Node.kind?, hs, NodeConfig.kind?]

theorem kind?_isSome (h : g.WellFormed) : ∀ n ∈ g.nodes, n.kind?.isSome = true := by
  intro n hn
  obtain ⟨s, hs⟩ := h.isSealed n hn
  rw [Node.kind?, hs]
  rfl

/-- Arranging gives every node its place and changes nothing else. -/
theorem arrange_eq (h : g.WellFormed) : g.arrange = ({ g with nodes := g.nodes.map g.settle }, true) := by
  have hplace : g.place g.placements = { g with nodes := g.nodes.map g.settle } := by
    rw [place]
    congr 1
    refine List.map_congr_left fun n hn => ?_
    rw [lookup_placements h.order_nodup (List.mem_map_of_mem hn)]
    rfl
  have hnone : g.placements.findIdx? (fun p => g.isBare p.1) = none := by
    simp [h.isBare_eq_false]
  have hleaves : g.connections.any (fun c => g.isBare c.source) = false := by
    simp [h.isBare_eq_false]
  simp only [Graph.arrange, hleaves, Bool.false_eq_true, if_false, hnone, hplace]

/-- A second arrangement changes nothing. -/
theorem arrange_arrange (h : g.WellFormed) : g.arrange.1.arrange = (g.arrange.1, true) := by
  have hsettle : ∀ n, (g.settle n).id = n.id ∧ (g.settle n).config = n.config := fun n =>
    ⟨n.id_moveTo _, n.config_moveTo _⟩
  have hagain : WellFormed { g with nodes := g.nodes.map g.settle } := by
    have harrange := h.arrange
    rwa [h.arrange_eq] at harrange
  -- the corners depend on ids and connections, which are the same
  have hcorner : corner { g with nodes := g.nodes.map g.settle } = g.corner := by
    funext id
    rw [corner, corner, placements_moved hsettle]
  have hnodes : (g.nodes.map g.settle).map (settle { g with nodes := g.nodes.map g.settle }) =
      g.nodes.map g.settle := by
    rw [List.map_map]
    refine List.map_congr_left fun n _ => ?_
    exact settle_settle hcorner n
  rw [h.arrange_eq, hagain.arrange_eq, hnodes]

/-- No two nodes get into touch. -/
theorem disjoint_areas (h : g.WellFormed) {m n : Node} (hm : m ∈ g.nodes) (hn : n ∈ g.nodes)
    (hne : m ≠ n) {k l : Kind} (hk : m.kind? = some k) (hl : n.kind? = some l) :
    Disjoint (k.area (g.corner m.id)) (l.area (g.corner n.id)) := by
  have hslot : ∀ {n k}, n ∈ g.nodes → n.kind? = some k →
      g.slotHeight n.id = k.spec.height + rowGap := by
    intro n k hn hk
    simp [slotHeight, node?_of_mem h.order_nodup hn, hk]
  have hmem := mem_placements h.order_nodup (List.mem_map_of_mem (f := (·.id)) hm)
  have hmem' := mem_placements h.order_nodup (List.mem_map_of_mem (f := (·.id)) hn)
  have hids : m.id ≠ n.id := fun he => hne (List.inj_on_of_nodup_map h.order_nodup hm hn he)
  -- one of the two was placed before the other
  have hclear : g.Clear (m.id, g.corner m.id) (n.id, g.corner n.id) ∨
      g.Clear (n.id, g.corner n.id) (m.id, g.corner m.id) := by
    have hpairs : g.placements.Pairwise fun e f => g.Clear e f ∨ g.Clear f e :=
      (stack_pairwise [] g.columns).imp .inl
    have : Std.Symm fun e f => g.Clear e f ∨ g.Clear f e := ⟨fun _ _ => Or.symm⟩
    exact hpairs.forall hmem hmem' fun he => hids (congrArg Prod.fst he)
  rw [Set.disjoint_left]
  rintro ⟨x, y⟩ ⟨⟨hx₁, hy₁⟩, hx₂, hy₂⟩ ⟨⟨hx₁', hy₁'⟩, hx₂', hy₂'⟩
  dsimp only at hx₁ hy₁ hx₂ hy₂ hx₁' hy₁' hx₂' hy₂'
  -- a common point would leave no room between the left or the upper edges
  have hxm : (g.corner n.id).1 ≤ (g.corner m.id).1 + k.spec.width := by
    exact_mod_cast hx₁'.trans hx₂
  have hxn : (g.corner m.id).1 ≤ (g.corner n.id).1 + l.spec.width := by
    exact_mod_cast hx₁.trans hx₂'
  have hym : (g.corner n.id).2 ≤ (g.corner m.id).2 + k.spec.height := by
    exact_mod_cast hy₁'.trans hy₂
  have hyn : (g.corner m.id).2 ≤ (g.corner n.id).2 + l.spec.height := by
    exact_mod_cast hy₁.trans hy₂'
  have := k.size_le
  have := l.size_le
  simp only [Clear, hslot hm hk, hslot hn hl, columnWidth, rowGap] at hclear
  omega

end WellFormed

/-! ## The extent -/

theorem numeric_whole (corner : Nat × Nat) : (Position.whole corner).Numeric := by
  constructor
  · rw [Position.x_whole]
    exact Binary64.ofNat_ne_nan corner.1
  · rw [Position.y_whole]
    exact Binary64.ofNat_ne_nan corner.2

theorem unsigned_whole (corner : Nat × Nat) : (Position.whole corner).Unsigned := by
  constructor
  · rw [Position.x_whole]
    exact Binary64.isNegative_ofNat corner.1
  · rw [Position.y_whole]
    exact Binary64.isNegative_ofNat corner.2

theorem holdsAll_settle {b : Box} : HoldsAll b (g.nodes.map g.settle) ↔
    ∀ n ∈ g.nodes, ∀ kind ∈ n.kind?, b.Holds kind (.whole (g.corner n.id)) := by
  rw [HoldsAll, List.forall_mem_map]
  refine forall₂_congr fun n _ => ?_
  rw [settle, Node.kind?_moveTo, Node.position_moveTo]

theorem rank_ofNat_zero : Binary64.rank (Binary64.ofNat 0) = 0 := by
  rw [Binary64.rank_ofNat (Nat.zero_le _), Nat.zero_mul]
  rfl

theorem ofNat_lt_zero (n : Nat) : (Binary64.ofNat n).lt 0 = false := by
  refine (Binary64.lt_eq_false_iff (Binary64.ofNat_ne_nan n) (Binary64.ofNat_ne_nan 0)).2 ?_
  rw [rank_ofNat_zero]
  exact Binary64.rank_nonneg (Binary64.isNegative_ofNat n)

/-- A number without a sign that is not above zero is zero. -/
theorem eq_zero_of_ofNat_zero_lt {a : Binary64} (ha : a ≠ .nan) (hsign : a.isNegative = false)
    (h : (Binary64.ofNat 0).lt a = false) : a = 0 := by
  have hle := (Binary64.lt_eq_false_iff (Binary64.ofNat_ne_nan 0) ha).1 h
  rw [rank_ofNat_zero] at hle
  have hrank : a.rank = Binary64.rank (Binary64.ofNat 0) := by
    rw [rank_ofNat_zero]
    exact le_antisymm hle (Binary64.rank_nonneg hsign)
  exact Binary64.eq_of_rank_eq ha (Binary64.ofNat_ne_nan 0)
    (hsign.trans (Binary64.isNegative_ofNat 0).symm) hrank

/-- A number that is neither above nor below a positive natural number is this number. -/
theorem eq_ofNat_of_lt {a : Binary64} {n : Nat} (ha : a ≠ .nan) (hpos : 0 < n)
    (hn : n ≤ Nat.pow 2 53) (hle : (Binary64.ofNat n).lt a = false)
    (hge : a.lt (.ofNat n) = false) : a = .ofNat n := by
  have hrank : a.rank = Binary64.rank (.ofNat n) :=
    le_antisymm ((Binary64.lt_eq_false_iff (Binary64.ofNat_ne_nan n) ha).1 hle)
      ((Binary64.lt_eq_false_iff ha (Binary64.ofNat_ne_nan n)).1 hge)
  have hrank_pos : 0 < a.rank := by
    rw [hrank, Binary64.rank_ofNat hn]
    exact_mod_cast Nat.mul_pos hpos Binary64.one_pos
  exact Binary64.eq_of_rank_eq ha (Binary64.ofNat_ne_nan n)
    ((Binary64.isNegative_of_rank_pos hrank_pos).trans (Binary64.isNegative_ofNat n).symm) hrank

/-- A box that starts at the origin holds the arranged nodes that end before its other sides. -/
theorem holdsAll_of_origin {maxX maxY : Binary64}
    (hx : ∀ n ∈ g.nodes, ∀ kind ∈ n.kind?,
      maxX.lt (.ofNat (g.corner n.id).1 + .ofNat kind.spec.width) = false)
    (hy : ∀ n ∈ g.nodes, ∀ kind ∈ n.kind?,
      maxY.lt (.ofNat (g.corner n.id).2 + .ofNat kind.spec.height) = false) :
    HoldsAll ⟨0, 0, maxX, maxY⟩ (g.nodes.map g.settle) := by
  refine holdsAll_settle.2 fun n hn kind hkind => ?_
  refine ⟨⟨?_, ?_⟩, hx n hn kind hkind, hy n hn kind hkind⟩
  · rw [Position.x_whole]
    exact ofNat_lt_zero _
  · rw [Position.y_whole]
    exact ofNat_lt_zero _

/-- A sum that does not go beyond a natural number a double holds is not above it. -/
theorem ofNat_lt_add_eq_false {m k n : Nat} (hn : n ≤ Nat.pow 2 53) (h : m + k ≤ n) :
    (Binary64.ofNat n).lt (.ofNat m + .ofNat k) = false := by
  rw [Binary64.ofNat_add_ofNat (h.trans hn), Binary64.lt_ofNat_eq_false_iff hn (h.trans hn)]
  exact h

/-- The right and the lower end of a node at its place. -/
def farEnd (g : Graph) (n : Node) : Nat × Nat :=
  ((g.corner n.id).1 + (n.kind?.map (·.spec.width)).getD 0,
    (g.corner n.id).2 + (n.kind?.map (·.spec.height)).getD 0)

theorem farEnd_eq {n : Node} {kind : Kind} (hk : n.kind? = some kind) :
    g.farEnd n = ((g.corner n.id).1 + kind.spec.width, (g.corner n.id).2 + kind.spec.height) := by
  simp [farEnd, hk]

/-- Some node reaches furthest to the right, and some node furthest down. -/
theorem exists_farthest (hne : g.nodes ≠ []) :
    (∃ n ∈ g.nodes, ∀ m ∈ g.nodes, (g.farEnd m).1 ≤ (g.farEnd n).1) ∧
      ∃ n ∈ g.nodes, ∀ m ∈ g.nodes, (g.farEnd m).2 ≤ (g.farEnd n).2 := by
  have hmax : ∀ f : Node → Nat, ∃ n ∈ g.nodes, ∀ m ∈ g.nodes, f m ≤ f n := by
    intro f
    have hnonempty : g.nodes.toFinset.Nonempty := by simpa [List.toFinset_nonempty_iff] using hne
    simpa using g.nodes.toFinset.exists_max_image f hnonempty
  exact ⟨hmax fun n => (g.farEnd n).1, hmax fun n => (g.farEnd n).2⟩

/-- The least box around the areas of all nodes starts at the origin and ends where the nodes that
reach furthest end. -/
theorem isLeastBox_covered {origin right low : Node} {k l m : Kind} (horigin : origin ∈ g.nodes)
    (hzero : g.corner origin.id = (0, 0)) (hk : origin.kind? = some k) (hright : right ∈ g.nodes)
    (hl : right.kind? = some l) (hlow : low ∈ g.nodes) (hm : low.kind? = some m)
    (hmaxX : ∀ n ∈ g.nodes, (g.farEnd n).1 ≤ (g.farEnd right).1)
    (hmaxY : ∀ n ∈ g.nodes, (g.farEnd n).2 ≤ (g.farEnd low).2) :
    IsLeastBox (g.covered g.corner) (0, 0) ((g.farEnd right).1, (g.farEnd low).2) := by
  constructor
  · rintro ⟨x, y⟩ ⟨n, hn, kind, hkind, ⟨hx, hy⟩, hx', hy'⟩
    have hendX := hmaxX n hn
    have hendY := hmaxY n hn
    rw [farEnd_eq hkind] at hendX hendY
    dsimp only at hx hy hx' hy' hendX hendY
    have hcastX : ((g.corner n.id).1 + kind.spec.width : ℚ) ≤ (g.farEnd right).1 := by
      exact_mod_cast hendX
    have hcastY : ((g.corner n.id).2 + kind.spec.height : ℚ) ≤ (g.farEnd low).2 := by
      exact_mod_cast hendY
    exact ⟨⟨(Nat.cast_nonneg _).trans hx, (Nat.cast_nonneg _).trans hy⟩, hx'.trans hcastX,
      hy'.trans hcastY⟩
  · intro low' high' hsub
    -- such a box holds both corners of every node
    have hcorner : ∀ {n kind}, n ∈ g.nodes → n.kind? = some kind →
        (((g.corner n.id).1 : ℚ), ((g.corner n.id).2 : ℚ)) ∈ Set.Icc low' high' := by
      intro n kind hn hkind
      refine hsub ⟨n, hn, kind, hkind, ⟨le_rfl, le_rfl⟩, ?_, ?_⟩
      · exact le_add_of_nonneg_right (Nat.cast_nonneg _)
      · exact le_add_of_nonneg_right (Nat.cast_nonneg _)
    have hend : ∀ {n kind}, n ∈ g.nodes → n.kind? = some kind →
        (((g.farEnd n).1 : ℚ), ((g.farEnd n).2 : ℚ)) ∈ Set.Icc low' high' := by
      intro n kind hn hkind
      rw [farEnd_eq hkind]
      push_cast
      refine hsub ⟨n, hn, kind, hkind, ⟨?_, ?_⟩, le_rfl, le_rfl⟩
      · exact le_add_of_nonneg_right (Nat.cast_nonneg _)
      · exact le_add_of_nonneg_right (Nat.cast_nonneg _)
    refine Set.Icc_subset_Icc ?_ ⟨(hend hright hl).2.1, (hend hlow hm).2.2⟩
    have hfirst := (hcorner horigin hk).1
    rw [hzero] at hfirst
    exact_mod_cast hfirst

namespace WellFormed

/-- The extent of the arranged graph starts at the origin, and it is the least box that holds all
nodes. Its sides are those of the least box around the areas as long as these are up to `2 ^ 53`. -/
theorem extent_arrange (h : g.WellFormed) (hne : g.nodes ≠ []) :
    ∃ b, g.arrange.1.extent = .box b ∧ (b.minX = 0 ∧ b.minY = 0) ∧
      (HoldsAll b g.arrange.1.nodes ∧ ∀ b', HoldsAll b' g.arrange.1.nodes → b.Within b') ∧
      ∃ width height : Nat, IsLeastBox (g.covered g.corner) (0, 0) (width, height) ∧
        (width ≤ Nat.pow 2 53 → b.maxX = .ofNat width) ∧
        (height ≤ Nat.pow 2 53 → b.maxY = .ofNat height) := by
  have hkind : ∀ {n}, n ∈ g.nodes → ∃ kind, n.kind? = some kind :=
    fun hn => Option.isSome_iff_exists.1 (h.kind?_isSome _ hn)
  have hnodes : g.arrange.1.nodes = g.nodes.map g.settle := by rw [h.arrange_eq]
  have hposition : ∀ n ∈ g.arrange.1.nodes, ∃ corner, n.position = .whole corner := by
    intro n hn
    rw [hnodes] at hn
    obtain ⟨m, -, rfl⟩ := List.mem_map.1 hn
    exact ⟨_, m.position_moveTo _⟩
  obtain ⟨b, hb, hnumeric, hleast, hunsigned⟩ := extent_least (g := g.arrange.1)
    (by simpa [hnodes] using hne) h.arrange.kind?_isSome
    (fun n hn => by
      obtain ⟨corner, hcorner⟩ := hposition n hn
      exact hcorner ▸ numeric_whole corner)
  have hall : HoldsAll b g.arrange.1.nodes := (hleast b).1 (.refl hnumeric)
  obtain ⟨hsignX, hsignY⟩ := hunsigned fun n hn => by
    obtain ⟨corner, hcorner⟩ := hposition n hn
    exact hcorner ▸ unsigned_whole corner
  rw [hnodes] at hall hleast ⊢
  obtain ⟨origin, horigin, hzero⟩ := exists_corner_eq_zero h.order_nodup hne
  obtain ⟨k, hk⟩ := hkind horigin
  -- the node at the origin keeps the box from starting later
  obtain ⟨⟨hlowX, hlowY⟩, -⟩ := holdsAll_settle.1 hall origin horigin k hk
  rw [hzero, Position.x_whole] at hlowX
  rw [hzero, Position.y_whole] at hlowY
  have hminX : b.minX = 0 := eq_zero_of_ofNat_zero_lt hnumeric.minX hsignX hlowX
  have hminY : b.minY = 0 := eq_zero_of_ofNat_zero_lt hnumeric.minY hsignY hlowY
  obtain ⟨⟨right, hright, hmaxX⟩, low, hlow, hmaxY⟩ := exists_farthest hne
  obtain ⟨l, hl⟩ := hkind hright
  obtain ⟨m, hm⟩ := hkind hlow
  refine ⟨b, hb, ⟨hminX, hminY⟩, ⟨hall, fun b' => (hleast b').2⟩, (g.farEnd right).1,
    (g.farEnd low).2, isLeastBox_covered horigin hzero hk hright hl hlow hm hmaxX hmaxY, ?_, ?_⟩
  · intro hwidth
    -- a box of this width and without a lower end holds all nodes as well
    obtain ⟨-, hle, -⟩ := (hleast ⟨0, 0, .ofNat (g.farEnd right).1, .infinity false⟩).2
      (holdsAll_of_origin
        (fun n hn kind hkind => by
          have hend := hmaxX n hn
          rw [farEnd_eq hkind] at hend
          exact ofNat_lt_add_eq_false hwidth hend)
        fun _ _ _ _ => Binary64.infinity_lt _)
    obtain ⟨-, hge, -⟩ := holdsAll_settle.1 hall right hright l hl
    rw [farEnd_eq hl] at hwidth hle ⊢
    rw [Position.x_whole, Binary64.ofNat_add_ofNat hwidth] at hge
    exact eq_ofNat_of_lt hnumeric.maxX (Nat.add_pos_right _ l.size_pos.1) hwidth hle hge
  · intro hheight
    obtain ⟨-, -, hle⟩ := (hleast ⟨0, 0, .infinity false, .ofNat (g.farEnd low).2⟩).2
      (holdsAll_of_origin (fun _ _ _ _ => Binary64.infinity_lt _)
        fun n hn kind hkind => by
          have hend := hmaxY n hn
          rw [farEnd_eq hkind] at hend
          exact ofNat_lt_add_eq_false hheight hend)
    obtain ⟨-, -, hge⟩ := holdsAll_settle.1 hall low hlow m hm
    rw [farEnd_eq hm] at hheight hle ⊢
    rw [Position.y_whole, Binary64.ofNat_add_ofNat hheight] at hge
    exact eq_ofNat_of_lt hnumeric.maxY (Nat.add_pos_right _ m.size_pos.2) hheight hle hge

end WellFormed

/-- Arranging an edited graph places every node once and changes nothing but positions. Then no two
nodes get into touch, the extent is the least box around all nodes and starts at the origin, and
arranging once more changes nothing. -/
theorem edited_graph_arranged (ids : Nat → String) (edits : List Edit) :
    let g := edited ids edits
    let g' := g.arrange.1
    (g.order.Nodup ∧ (g.placements.map (·.1)).Perm g.order) ∧
    g.arrange = ({ g with nodes := g.nodes.map fun n => n.moveTo (.whole (g.corner n.id)) }, true) ∧
    (∀ m ∈ g.nodes, ∀ n ∈ g.nodes, m ≠ n → ∃ k l, m.kind? = some k ∧ n.kind? = some l ∧
      Disjoint (k.area (g.corner m.id)) (l.area (g.corner n.id))) ∧
    (g.nodes ≠ [] → ∃ b, g'.extent = .box b ∧ (b.minX = 0 ∧ b.minY = 0) ∧
      (HoldsAll b g'.nodes ∧ ∀ b', HoldsAll b' g'.nodes → b.Within b') ∧
      ∃ width height : Nat, IsLeastBox (g.covered g.corner) (0, 0) (width, height) ∧
        (width ≤ Nat.pow 2 53 → b.maxX = .ofNat width) ∧
        (height ≤ Nat.pow 2 53 → b.maxY = .ofNat height)) ∧
    g'.arrange = (g', true) := by
  intro g g'
  have h : g.WellFormed := wellFormed_edited ids edits
  refine ⟨⟨h.order_nodup, placements_perm h.order_nodup⟩, h.arrange_eq, fun m hm n hn hne => ?_,
    h.extent_arrange, h.arrange_arrange⟩
  obtain ⟨k, hk⟩ := Option.isSome_iff_exists.1 (h.kind?_isSome m hm)
  obtain ⟨l, hl⟩ := Option.isSome_iff_exists.1 (h.kind?_isSome n hn)
  exact ⟨k, l, hk, hl, h.disjoint_areas hm hn hne hk hl⟩

/-- A loop that two edges leave by one output, a condition that leads to itself, and a quote that only
brings data; everything stands at the same place. -/
def crowdedEdits : List Edit :=
  [.insert (some ⟨"f", ⟨0, 0⟩, .sealed .forEach⟩),
    .insert (some ⟨"b", ⟨0, 0⟩, .sealed (.default .conditional)⟩),
    .insert (some ⟨"o", ⟨0, 0⟩, .sealed (.default .fetchDates)⟩),
    .insert (some ⟨"q", ⟨0, 0⟩, .sealed (.default .fetchQuote)⟩),
    .connectAs "1" ⟨"f", "loopBody", "o", "exec"⟩, .connectAs "2" ⟨"f", "loopBody", "f", "exec"⟩,
    .connectAs "3" ⟨"b", "true", "b", "exec"⟩, .connectAs "4" ⟨"q", "quote", "b", "value"⟩]

/-- The loop and the condition start the first column, the quote stands below them, and the dates stand
right of the loop; the extent starts at the loop, and arranging again leaves everything there. -/
theorem crowded_arranged :
    let g := edited (fun _ => "") crowdedEdits
    g.placements = [("f", 0, 0), ("o", 360, 0), ("b", 0, 220), ("q", 0, 520)] ∧
    g.arrange.1.arrange = (g.arrange.1, true) ∧
    ∃ b, g.arrange.1.extent = .box b ∧ b.minX = 0 ∧ b.minY = 0 := by
  intro g
  have horder : g.order = ["f", "b", "o", "q"] := by decide +kernel
  have hedges : g.controlEdges = [("f", "o"), ("f", "f"), ("b", "b")] := by decide +kernel
  have hsearched : g.searched = ([("f", 0), ("o", 1), ("b", 0)], ["q"]) := by
    rw [searched, starts, controlNodes, horder, hedges]
    cbv
  have hcolumns : g.columns = [("f", 0), ("o", 1), ("b", 0), ("q", 0)] := by
    rw [columns_eq, hsearched]
    decide +kernel
  obtain ⟨-, -, -, hextent, hagain⟩ := edited_graph_arranged (fun _ => "") crowdedEdits
  obtain ⟨b, hb, hmin, -⟩ := hextent (by decide +kernel)
  refine ⟨?_, hagain, b, hb, hmin⟩
  rw [placements, hcolumns]
  decide +kernel

end Graph

end TradeFlow
