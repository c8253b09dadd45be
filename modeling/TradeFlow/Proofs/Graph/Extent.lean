import TradeFlow.Proofs.Graph.WellFormed
import TradeFlow.Proofs.Number.Order

/-!
The box around a graph.

The nodes of a graph are taken into the box one after the other. As long as no position is NaN, the
order of doubles is total on all sides that occur. What is proved:

1. `Box.cover_within_iff`: a box that takes in a node lies within exactly the boxes that the box lay
   within before and that hold the node.
2. `Graph.extent_eq`: if every node has a kind, the extent of a graph is the box that took them all in.
3. `Graph.extent_least`: this is the least box that holds all nodes.
-/

namespace TradeFlow

/-- A width or a height from the catalogue is at most 300. -/
theorem Kind.size_le (kind : Kind) : kind.spec.width ≤ 300 ∧ kind.spec.height ≤ 300 := by
  cases kind <;> decide

theorem Kind.size_pos (kind : Kind) : 0 < kind.spec.width ∧ 0 < kind.spec.height := by
  cases kind <;> decide

theorem Kind.isFinite_width (kind : Kind) : (Binary64.ofNat kind.spec.width).isFinite = true := by
  obtain ⟨code, hcode, -⟩ := Binary64.exists_ofNat_eq (n := kind.spec.width)
    (kind.size_le.1.trans (by decide))
  rw [hcode]
  rfl

theorem Kind.isFinite_height (kind : Kind) : (Binary64.ofNat kind.spec.height).isFinite = true := by
  obtain ⟨code, hcode, -⟩ := Binary64.exists_ofNat_eq (n := kind.spec.height)
    (kind.size_le.2.trans (by decide))
  rw [hcode]
  rfl

/-- Both coordinates are numbers. -/
def Position.Numeric (p : Position) : Prop := p.x ≠ .nan ∧ p.y ≠ .nan

/-- No coordinate has a minus sign. -/
def Position.Unsigned (p : Position) : Prop := p.x.isNegative = false ∧ p.y.isNegative = false

namespace Box

/-- Every side is a number. -/
structure Numeric (b : Box) : Prop where
  minX : b.minX ≠ .nan
  minY : b.minY ≠ .nan
  maxX : b.maxX ≠ .nan
  maxY : b.maxY ≠ .nan

/-- No side of a node of a kind at a position is beyond the side of the box. -/
def Holds (b : Box) (kind : Kind) (p : Position) : Prop :=
  (p.x.lt b.minX = false ∧ p.y.lt b.minY = false) ∧
    b.maxX.lt (p.x + .ofNat kind.spec.width) = false ∧
    b.maxY.lt (p.y + .ofNat kind.spec.height) = false

/-- No side of the box is beyond the side of the other one. -/
def Within (b b' : Box) : Prop :=
  (b.minX.lt b'.minX = false ∧ b.minY.lt b'.minY = false) ∧
    b'.maxX.lt b.maxX = false ∧ b'.maxY.lt b.maxY = false

variable {b b' : Box} {kind : Kind} {p : Position}

theorem Within.refl (hb : b.Numeric) : b.Within b :=
  ⟨⟨(Binary64.lt_eq_false_iff hb.minX hb.minX).2 le_rfl,
    (Binary64.lt_eq_false_iff hb.minY hb.minY).2 le_rfl⟩,
    (Binary64.lt_eq_false_iff hb.maxX hb.maxX).2 le_rfl,
    (Binary64.lt_eq_false_iff hb.maxY hb.maxY).2 le_rfl⟩

/-- The upper left corner has no minus sign. -/
def Unsigned (b : Box) : Prop := b.minX.isNegative = false ∧ b.minY.isNegative = false

theorem numeric_nothing : nothing.Numeric := by
  constructor <;> simp [nothing]

/-- The box that holds nothing lies within every box. -/
theorem nothing_within (b : Box) : nothing.Within b := by
  have hhigh : ∀ x : Binary64, x.lt (.infinity true) = false := by
    intro x
    cases x <;> simp [Binary64.lt]
  exact ⟨⟨Binary64.infinity_lt _, Binary64.infinity_lt _⟩, hhigh _, hhigh _⟩

theorem Numeric.cover (hb : b.Numeric) (hp : p.Numeric) : (b.cover kind p).Numeric where
  minX := Binary64.min_ne_nan hb.minX hp.1
  minY := Binary64.min_ne_nan hb.minY hp.2
  maxX := Binary64.max_ne_nan hb.maxX (Binary64.add_ne_nan hp.1 kind.isFinite_width)
  maxY := Binary64.max_ne_nan hb.maxY (Binary64.add_ne_nan hp.2 kind.isFinite_height)

theorem Unsigned.cover (hb : b.Numeric) (hp : p.Numeric) (h : b.Unsigned) (h' : p.Unsigned) :
    (b.cover kind p).Unsigned := by
  constructor
  · rcases Binary64.min_cases hb.minX hp.1 with ⟨heq, -⟩ | ⟨heq, -⟩
    · exact (congrArg Binary64.isNegative heq).trans h.1
    · exact (congrArg Binary64.isNegative heq).trans h'.1
  · rcases Binary64.min_cases hb.minY hp.2 with ⟨heq, -⟩ | ⟨heq, -⟩
    · exact (congrArg Binary64.isNegative heq).trans h.2
    · exact (congrArg Binary64.isNegative heq).trans h'.2

/-- A box with one more node lies within the boxes that held the rest and hold this node. -/
theorem cover_within_iff (hb : b.Numeric) (hp : p.Numeric) :
    (b.cover kind p).Within b' ↔ b.Within b' ∧ b'.Holds kind p := by
  have hx := Binary64.add_ne_nan hp.1 kind.isFinite_width
  have hy := Binary64.add_ne_nan hp.2 kind.isFinite_height
  simp only [Within, Holds, cover, Binary64.min_lt_eq_false_iff hb.minX hp.1,
    Binary64.min_lt_eq_false_iff hb.minY hp.2, Binary64.lt_max_eq_false_iff hb.maxX hx,
    Binary64.lt_max_eq_false_iff hb.maxY hy]
  tauto

end Box

namespace Graph

/-- Takes a node into a box; a bare node has no size and is left out. -/
def takeIn (b : Box) (n : Node) : Box :=
  match n.kind? with
  | some kind => b.cover kind n.position
  | none => b

variable {nodes : List Node} {b b' : Box}

/-- Every node of a list lies in the box. -/
def HoldsAll (b : Box) (nodes : List Node) : Prop :=
  ∀ n ∈ nodes, ∀ kind ∈ n.kind?, b.Holds kind n.position

theorem numeric_takeIn (hb : b.Numeric) {n : Node} (hn : n.position.Numeric) :
    (takeIn b n).Numeric := by
  unfold takeIn
  split
  · exact hb.cover hn
  · exact hb

theorem takeIn_within_iff (hb : b.Numeric) {n : Node} (hn : n.position.Numeric) :
    (takeIn b n).Within b' ↔ b.Within b' ∧ ∀ kind ∈ n.kind?, b'.Holds kind n.position := by
  unfold takeIn
  split
  · next kind hkind => simp [hkind, Box.cover_within_iff hb hn]
  · next hkind => simp [hkind]

theorem numeric_foldl_takeIn (hb : b.Numeric) (hnodes : ∀ n ∈ nodes, n.position.Numeric) :
    (nodes.foldl takeIn b).Numeric := by
  induction nodes generalizing b with
  | nil => exact hb
  | cons n nodes ih =>
    obtain ⟨hn, hnodes⟩ := List.forall_mem_cons.1 hnodes
    exact ih (numeric_takeIn hb hn) hnodes

theorem unsigned_foldl_takeIn (hb : b.Numeric) (hnodes : ∀ n ∈ nodes, n.position.Numeric)
    (h : b.Unsigned) (hunsigned : ∀ n ∈ nodes, n.position.Unsigned) :
    (nodes.foldl takeIn b).Unsigned := by
  induction nodes generalizing b with
  | nil => exact h
  | cons n nodes ih =>
    obtain ⟨hn, hnodes⟩ := List.forall_mem_cons.1 hnodes
    obtain ⟨hn', hunsigned⟩ := List.forall_mem_cons.1 hunsigned
    refine ih (numeric_takeIn hb hn) hnodes ?_ hunsigned
    unfold takeIn
    split
    · exact h.cover hb hn hn'
    · exact h

/-- A box that took in nodes lies within the boxes that hold them and held the rest before. -/
theorem foldl_takeIn_within_iff (hb : b.Numeric) (hnodes : ∀ n ∈ nodes, n.position.Numeric) :
    (nodes.foldl takeIn b).Within b' ↔ b.Within b' ∧ HoldsAll b' nodes := by
  induction nodes generalizing b with
  | nil => simp [HoldsAll]
  | cons n nodes ih =>
    obtain ⟨hn, hnodes⟩ := List.forall_mem_cons.1 hnodes
    rw [List.foldl_cons, ih (numeric_takeIn hb hn) hnodes, takeIn_within_iff hb hn, HoldsAll,
      HoldsAll, List.forall_mem_cons, and_assoc]

/-- With kinds for all nodes, the extent is the box that took them all in. -/
theorem extent_eq {g : Graph} (hne : g.nodes ≠ []) (hkinds : ∀ n ∈ g.nodes, n.kind?.isSome = true) :
    g.extent = .box (g.nodes.foldl takeIn .nothing) := by
  unfold extent
  split
  · next hnil => exact absurd hnil hne
  · generalize g.nodes = nodes at hkinds ⊢
    generalize Box.nothing = b
    induction nodes generalizing b with
    | nil => rfl
    | cons n nodes ih =>
      obtain ⟨hn, hkinds⟩ := List.forall_mem_cons.1 hkinds
      obtain ⟨kind, hkind⟩ := Option.isSome_iff_exists.1 hn
      simp only [List.foldl_cons, hkind, takeIn]
      exact ih hkinds _

/-- The extent is the least box that holds all nodes, and it gets no sign that no node had. -/
theorem extent_least {g : Graph} (hne : g.nodes ≠ []) (hkinds : ∀ n ∈ g.nodes, n.kind?.isSome = true)
    (hnumeric : ∀ n ∈ g.nodes, n.position.Numeric) :
    ∃ b, g.extent = .box b ∧ b.Numeric ∧ (∀ b', b.Within b' ↔ HoldsAll b' g.nodes) ∧
      ((∀ n ∈ g.nodes, n.position.Unsigned) → b.Unsigned) := by
  refine ⟨_, extent_eq hne hkinds, numeric_foldl_takeIn Box.numeric_nothing hnumeric, fun b' => ?_,
    unsigned_foldl_takeIn Box.numeric_nothing hnumeric ⟨rfl, rfl⟩⟩
  rw [foldl_takeIn_within_iff Box.numeric_nothing hnumeric]
  exact and_iff_right (Box.nothing_within b')

end Graph

end TradeFlow
