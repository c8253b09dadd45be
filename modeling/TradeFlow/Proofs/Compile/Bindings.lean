import TradeFlow.Proofs.Catalogue
import TradeFlow.Proofs.Compile.Lowering
import Mathlib.Data.List.Nodup

/-!
What is known while a flow is lowered.

One table of bindings serves a whole compilation. It only grows: lowering a flow binds the values of
its nodes to variables that were never used before, and leaves all other outputs as they were. What
is proved:

1. `Known.Opens.sound`: a variable that is allocated for an output is fresh.
2. `Lowered.extends`: lowering a flow binds each of its outputs to a fresh variable.
3. `Known.Opens.escapes_iff` and `Known.Extends.escapes_iff`: an output escapes a scope if it is bound
   to a variable outside. Declaring a variable lets no output escape, and closing a block lets the
   outputs escape that were bound in it.
4. `Known.Ready` holds of each part of a flow when its turn comes, if it holds of the flow.
-/

namespace TradeFlow

open Lower

/-- The outputs that an action of a node binds. -/
def Action.outputs (a : Action) (n : Node) : List OutputRef :=
  (actionKind a).value?.toList.map (⟨n.id, ·⟩)

/-- The outputs that are bound when a flow is lowered. -/
def Control.outputs : Control → List OutputRef
  | .stop => []
  | .cycle _ => []
  | .unusable _ => []
  | .silent _ rest => rest.outputs
  | .action n a rest => a.outputs n ++ rest.outputs
  | .loop n body rest => ⟨n.id, "item"⟩ :: body.outputs ++ rest.outputs
  | .branch _ _ yes no => yes.outputs ++ no.outputs

/-- The outputs belong to nodes of the flow. -/
theorem Control.node_mem_ids {flow : Control} {ref : OutputRef} (h : ref ∈ flow.outputs) :
    ref.node ∈ flow.ids := by
  induction flow with
  | stop => simp [outputs] at h
  | cycle ref => simp [outputs] at h
  | unusable n => simp [outputs] at h
  | silent n rest ih => exact mem_ids_silent.2 (.inr (ih h))
  | action n a rest ih =>
    rw [mem_ids_action]
    rcases List.mem_append.1 h with h | h
    · obtain ⟨key, -, rfl⟩ := List.mem_map.1 h
      exact .inl rfl
    · exact .inr (ih h)
  | loop n body rest ihbody ihrest =>
    rw [mem_ids_loop]
    rcases List.mem_append.1 h with h | h
    · rcases List.mem_cons.1 h with rfl | h
      · exact .inl rfl
      · exact .inr (.inl (ihbody h))
    · exact .inr (.inr (ihrest h))
  | branch n c yes no ihyes ihno =>
    rw [mem_ids_branch]
    rcases List.mem_append.1 h with h | h
    · exact .inr (.inl (ihyes h))
    · exact .inr (.inr (ihno h))

namespace Known

/-- Variables are numbered upwards for each stem, and outputs are bound to allocated ones. -/
structure Sound (known : Known) : Prop where
  numbered : ∀ v ∈ known.allocated, v.number ≤ known.count v.stem
  bound : ∀ ref b v, known.output? ref = some b → b.expr.reads? = some v → v ∈ known.allocated

/-- A new variable is allocated and an output is bound to it. -/
structure Opens (known : Known) (ref : OutputRef) (v : Variable) (known' : Known) : Prop where
  number : v.number = known.count v.stem + 1
  allocated : known'.allocated = v :: known.allocated
  self : ∃ b, known'.output? ref = some b ∧ b.expr.reads? = some v
  other : ∀ ref', ref' ≠ ref → known'.output? ref' = known.output? ref'

/-- Some outputs are bound to variables that were not allocated before. -/
structure Extends (outputs : List OutputRef) (known known' : Known) : Prop where
  allocated : known.allocated ⊆ known'.allocated
  frame : ∀ ref, ref ∉ outputs → known'.output? ref = known.output? ref
  fresh : ∀ ref ∈ outputs, ∃ b v, known'.output? ref = some b ∧ b.expr.reads? = some v ∧
    v ∈ known'.allocated ∧ v ∉ known.allocated

/-- An output is bound to a variable outside a scope. -/
def Escapes (known : Known) (scope : List Variable) (ref : OutputRef) : Prop :=
  ∃ b v, known.output? ref = some b ∧ b.expr.reads? = some v ∧ v ∉ scope

variable {known known₁ known' : Known} {ref ref' : OutputRef} {v : Variable}
  {scope : List Variable} {outputs outputs' : List OutputRef}

/-! ## One variable -/

theorem output?_bindOutput (known : Known) (n : Node) (kind : Kind) (output : String)
    (source : Source) (ref : OutputRef) :
    (∃ shape, (bindOutput known n kind output source).output? ⟨n.id, output⟩ =
      some ⟨source, shape⟩) ∧
    (ref ≠ ⟨n.id, output⟩ → (bindOutput known n kind output source).output? ref =
      known.output? ref) := by
  constructor
  · exact ⟨_, List.lookup_cons_self⟩
  · intro hne
    have hbeq : (ref == ⟨n.id, output⟩) = false := by simpa using hne
    simp [bindOutput, Scope.bind, Scope.output?, List.lookup_cons, hbeq]

/-- Allocating a variable and binding an output to it. -/
theorem opens_bindOutput (known : Known) (n : Node) (kind : Kind) (stem output : String)
    (source : Variable → Source) (hsource : ∀ v, (source v).reads? = some v) :
    known.Opens ⟨n.id, output⟩ (known.allocate stem).1
      (bindOutput (known.allocate stem).2 n kind output (source (known.allocate stem).1)) where
  number := rfl
  allocated := rfl
  self := by
    obtain ⟨shape, h⟩ := (output?_bindOutput (known.allocate stem).2 n kind output
      (source (known.allocate stem).1) ⟨n.id, output⟩).1
    exact ⟨_, h, hsource _⟩
  other := fun ref' hne => (output?_bindOutput (known.allocate stem).2 n kind output _ ref').2 hne

theorem Opens.not_mem (h : known.Opens ref v known') (hsound : known.Sound) :
    v ∉ known.allocated := by
  intro hmem
  have hle := hsound.numbered v hmem
  rw [h.number] at hle
  omega

theorem Opens.count_eq (h : known.Opens ref v known') (stem : String) :
    known'.count stem = known.count stem + if v.stem = stem then 1 else 0 := by
  simp [Scope.count, h.allocated, List.countP_cons]

theorem Opens.sound (h : known.Opens ref v known') (hsound : known.Sound) : known'.Sound := by
  constructor
  · intro w hw
    rw [h.allocated] at hw
    rw [h.count_eq]
    rcases List.mem_cons.1 hw with rfl | hw
    · exact Nat.le_of_eq (by rw [h.number, if_pos rfl])
    · exact Nat.le_add_right_of_le (hsound.numbered w hw)
  · intro ref' b w hb hw
    rw [h.allocated]
    by_cases href : ref' = ref
    · obtain ⟨b', hb', hv⟩ := h.self
      rw [href, hb', Option.some.injEq] at hb
      rw [← hb, hv, Option.some.injEq] at hw
      exact hw ▸ List.mem_cons_self
    · rw [h.other ref' href] at hb
      exact List.mem_cons_of_mem v (hsound.bound ref' b w hb hw)

theorem Opens.extends (h : known.Opens ref v known') (hsound : known.Sound) :
    Extends [ref] known known' where
  allocated := by
    rw [h.allocated]
    exact List.subset_cons_self v _
  frame := fun ref' href => h.other ref' (by simpa using href)
  fresh := by
    intro ref' href
    rw [List.mem_singleton.1 href]
    obtain ⟨b, hb, hv⟩ := h.self
    exact ⟨b, v, hb, hv, by rw [h.allocated]; exact List.mem_cons_self, h.not_mem hsound⟩

/-- Declaring the new variable lets no output escape. -/
theorem Opens.escapes_iff (h : known.Opens ref v known') (hsound : known.Sound)
    (hnone : known.output? ref = none) :
    known'.Escapes (v :: scope) ref' ↔ known.Escapes scope ref' := by
  by_cases href : ref' = ref
  · subst href
    obtain ⟨b', hb', hv⟩ := h.self
    simp [Escapes, hb', hv, hnone]
  · simp only [Escapes, h.other ref' href]
    refine exists_congr fun b => exists_congr fun w => ?_
    refine and_congr_right fun hb => and_congr_right fun hw => ?_
    have hne : w ≠ v := fun he => h.not_mem hsound (he ▸ hsound.bound ref' b w hb hw)
    rw [List.mem_cons, or_iff_right hne]

/-! ## Many variables -/

theorem Extends.refl (known : Known) : Extends [] known known where
  allocated := List.Subset.refl _
  frame := fun _ _ => rfl
  fresh := by simp

theorem Extends.trans (h : Extends outputs known known₁) (h' : Extends outputs' known₁ known') :
    Extends (outputs ++ outputs') known known' where
  allocated := fun _ hv => h'.allocated (h.allocated hv)
  frame := by
    intro ref href
    rw [List.mem_append, not_or] at href
    rw [h'.frame ref href.2, h.frame ref href.1]
  fresh := by
    intro ref href
    -- an output that is bound twice keeps the later variable, which is fresh all the more
    by_cases hlast : ref ∈ outputs'
    · obtain ⟨b, v, hb, hv, hmem, hnot⟩ := h'.fresh ref hlast
      exact ⟨b, v, hb, hv, hmem, fun hold => hnot (h.allocated hold)⟩
    · obtain ⟨b, v, hb, hv, hmem, hnot⟩ :=
        h.fresh ref ((List.mem_append.1 href).resolve_right hlast)
      exact ⟨b, v, by rw [h'.frame ref hlast, hb], hv, h'.allocated hmem, hnot⟩

theorem Extends.escapes_of_not_mem (h : Extends outputs known known') (href : ref ∉ outputs) :
    known'.Escapes scope ref ↔ known.Escapes scope ref := by
  simp only [Escapes, h.frame ref href]

/-- Outside the block that bound them, the outputs escape, and no others do. -/
theorem Extends.escapes_iff (h : Extends outputs known known')
    (hscope : ∀ v ∈ scope, v ∈ known.allocated) :
    known'.Escapes scope ref ↔ known.Escapes scope ref ∨ ref ∈ outputs := by
  by_cases href : ref ∈ outputs
  · obtain ⟨b, v, hb, hv, -, hnot⟩ := h.fresh ref href
    exact iff_of_true ⟨b, v, hb, hv, fun hmem => hnot (hscope v hmem)⟩ (.inr href)
  · rw [h.escapes_of_not_mem href, or_iff_left href]

end Known

/-! ## Lowering -/

variable {links : List Link} {known known' : Known} {n : Node} {a : Action} {call : Call}

theorem fetch_opens {kind : Kind} {function : Capability} {stem output : String}
    {source : Variable → Source} {fields : Known → List Field}
    (h : fetch known n kind function stem output source fields = (known', call))
    (hsource : ∀ v, (source v).reads? = some v) :
    ∃ v, call.result = some v ∧ known.Opens ⟨n.id, output⟩ v known' := by
  obtain ⟨hnumber, hallocated, hself, hother⟩ :=
    Known.opens_bindOutput (known.require function) n kind stem output source hsource
  cases h
  exact ⟨_, rfl, hnumber, hallocated, hself, hother⟩

/-- An order binds nothing. -/
theorem order_eq_ok {s : PlaceOrder} (h : order links known n s = .ok (known', call)) :
    call.result = none ∧ known' = known.require .placeOrder := by
  simp only [order] at h
  split at h
  · next entry _ _ =>
    cases hlegs : legs entry.expr s with
    | error halt => simp [hlegs, Except.map] at h
    | ok pair =>
      simp only [hlegs, Except.map, Except.ok.injEq, Prod.mk.injEq] at h
      obtain ⟨rfl, rfl⟩ := h
      exact ⟨rfl, rfl⟩
  · cases h
    exact ⟨rfl, rfl⟩
  · cases h
    exact ⟨rfl, rfl⟩

/-- An action names its result and binds the output of its kind to it, or it does neither. -/
theorem action_cases (h : Lower.action links known n a = .ok (known', call)) :
    (∃ key v, (actionKind a).value? = some key ∧ call.result = some v ∧
      known.Opens ⟨n.id, key⟩ v known') ∨
    ((actionKind a).value? = none ∧ call.result = none ∧ known'.allocated = known.allocated ∧
      ∀ ref, known'.output? ref = known.output? ref) := by
  cases a with
  | placeOrder s =>
    obtain ⟨hresult, rfl⟩ := order_eq_ok h
    exact .inr ⟨rfl, hresult, rfl, fun _ => rfl⟩
  | _ =>
    simp only [Lower.action, Except.ok.injEq] at h
    obtain ⟨v, hresult, hopens⟩ := fetch_opens h (fun _ => rfl)
    exact .inl ⟨_, v, rfl, hresult, hopens⟩

theorem action_extends (h : Lower.action links known n a = .ok (known', call))
    (hsound : known.Sound) : known'.Sound ∧ Known.Extends (a.outputs n) known known' := by
  rcases action_cases h with ⟨key, v, hkey, -, hopens⟩ | ⟨hkey, -, hallocated, hsame⟩
  · rw [Action.outputs, hkey]
    exact ⟨hopens.sound hsound, hopens.extends hsound⟩
  · rw [Action.outputs, hkey]
    refine ⟨⟨fun v hv => ?_, fun ref b v hb hv => ?_⟩, ?_⟩
    · rw [Scope.count, hallocated]
      exact hsound.numbered v (hallocated ▸ hv)
    · rw [hallocated]
      exact hsound.bound ref b v (hsame ref ▸ hb) hv
    · exact ⟨by rw [hallocated]; exact List.Subset.refl _, fun ref _ => hsame ref, by simp⟩

/-- With its result declared, an action lets no output escape. -/
theorem action_escapes_iff {scope : List Variable} {ref : OutputRef}
    (h : Lower.action links known n a = .ok (known', call)) (hsound : known.Sound)
    (hnone : ∀ ref ∈ a.outputs n, known.output? ref = none) :
    known'.Escapes (call.result.toList ++ scope) ref ↔ known.Escapes scope ref := by
  rcases action_cases h with ⟨key, v, hkey, hresult, hopens⟩ | ⟨-, hresult, -, hsame⟩
  · have hmem : (⟨n.id, key⟩ : OutputRef) ∈ a.outputs n := by simp [Action.outputs, hkey]
    rw [hresult]
    exact hopens.escapes_iff hsound (hnone _ hmem)
  · simp only [hresult, Option.toList_none, List.nil_append, Known.Escapes, hsame]

theorem action_allocated {scope : List Variable}
    (h : Lower.action links known n a = .ok (known', call))
    (hscope : ∀ v ∈ scope, v ∈ known.allocated) :
    ∀ v ∈ call.result.toList ++ scope, v ∈ known'.allocated := by
  rcases action_cases h with ⟨key, w, -, hresult, hopens⟩ | ⟨-, hresult, hallocated, -⟩
  · rw [hresult, hopens.allocated]
    exact fun v hv => (List.mem_cons.1 hv).elim (fun he => he ▸ List.mem_cons_self)
      fun hv => List.mem_cons_of_mem w (hscope v hv)
  · rw [hresult, hallocated]
    exact hscope

/-- What is known when the body of a loop begins. -/
abbrev Known.entered (known : Known) (n : Node) : Known :=
  bindOutput (known.allocate "item").2 n .forEach "item" (.symbol (known.allocate "item").1)

theorem Known.opens_entered (known : Known) (n : Node) :
    known.Opens ⟨n.id, "item"⟩ (known.allocate "item").1 (known.entered n) :=
  known.opens_bindOutput n .forEach "item" "item" .symbol fun _ => rfl

/-- Lowering a flow binds its outputs to fresh variables. -/
theorem Lowered.extends {flow : Control} {block : Block}
    (h : Lowered links flow known known' block) (hsound : known.Sound) :
    known'.Sound ∧ Known.Extends flow.outputs known known' := by
  induction h with
  | stop => exact ⟨hsound, .refl _⟩
  | silent _ ih => exact ih hsound
  | action ha _ ih =>
    obtain ⟨hsound₁, haction⟩ := action_extends ha hsound
    obtain ⟨hsound', hrest⟩ := ih hsound₁
    exact ⟨hsound', haction.trans hrest⟩
  | @loop n _ _ known _ _ _ _ _ _ ihbody ihrest =>
    have hopens := known.opens_entered n
    obtain ⟨hsound₁, hbody⟩ := ihbody (hopens.sound hsound)
    obtain ⟨hsound', hrest⟩ := ihrest hsound₁
    exact ⟨hsound', ((hopens.extends hsound).trans hbody).trans hrest⟩
  | branch _ _ ihyes ihno =>
    obtain ⟨hsound₁, hyes⟩ := ihyes hsound
    obtain ⟨hsound', hno⟩ := ihno hsound₁
    exact ⟨hsound', hyes.trans hno⟩

/-- At the end of its body, a loop has bound its item and the outputs of the body. -/
theorem Lowered.extends_loop {body : Control} {block : Block}
    (h : Lowered links body (known.entered n) known' block) (hsound : known.Sound) :
    known'.Sound ∧ Known.Extends (⟨n.id, "item"⟩ :: body.outputs) known known' := by
  have hopens := known.opens_entered n
  obtain ⟨hsound', hextends⟩ := h.extends (hopens.sound hsound)
  exact ⟨hsound', (hopens.extends hsound).trans hextends⟩

/-! ## Before a flow is lowered -/

/-- The table is sound and has nothing of the flow yet, and the scope holds allocated variables
only. -/
structure Known.Ready (known : Known) (scope : List Variable) (flow : Control) : Prop where
  sound : known.Sound
  allocated : ∀ v ∈ scope, v ∈ known.allocated
  unbound : ∀ ref ∈ flow.outputs, known.output? ref = none

namespace Known.Ready

variable {known₁ : Known} {scope scope' : List Variable} {c : Conditional}
  {flow flow' body rest yes no : Control} {block : Block}

/-- Another part of the flow, after some outputs that it does not have were bound. -/
theorem later {outputs : List OutputRef} (h : known.Ready scope flow) (hsound : known₁.Sound)
    (hextends : Known.Extends outputs known known₁) (hscope : ∀ v ∈ scope', v ∈ known₁.allocated)
    (hpart : flow'.outputs ⊆ flow.outputs) (hother : ∀ ref ∈ flow'.outputs, ref ∉ outputs) :
    known₁.Ready scope' flow' where
  sound := hsound
  allocated := hscope
  unbound := by
    intro ref href
    rw [hextends.frame ref (hother ref href)]
    exact h.unbound ref (hpart href)

theorem action (h : known.Ready scope (.action n a rest)) (hself : n.id ∉ rest.ids)
    (ha : Lower.action links known n a = .ok (known₁, call)) :
    known₁.Ready (call.result.toList ++ scope) rest := by
  obtain ⟨hsound, hextends⟩ := action_extends ha h.sound
  refine h.later hsound hextends (action_allocated ha h.allocated) (List.subset_append_right _ _) ?_
  intro ref href hmem
  obtain ⟨key, -, rfl⟩ := List.mem_map.1 hmem
  exact hself (Control.node_mem_ids href)

theorem loopBody (h : known.Ready scope (.loop n body rest)) (hself : n.id ∉ body.ids) :
    (known.entered n).Ready ((known.allocate "item").1 :: scope) body := by
  have hopens := known.opens_entered n
  refine h.later (hopens.sound h.sound) (hopens.extends h.sound) ?_ ?_ ?_
  · rw [hopens.allocated]
    exact List.forall_mem_cons.2
      ⟨List.mem_cons_self, fun v hv => List.mem_cons_of_mem _ (h.allocated v hv)⟩
  · exact fun ref href => List.mem_append_left _ (List.mem_cons_of_mem _ href)
  · intro ref href hmem
    rw [List.mem_singleton.1 hmem] at href
    exact hself (Control.node_mem_ids href)

theorem loopRest (h : known.Ready scope (.loop n body rest)) (hself : n.id ∉ rest.ids)
    (hdisjoint : body.ids.Disjoint rest.ids)
    (hbody : Lowered links body (known.entered n) known₁ block) : known₁.Ready scope rest := by
  obtain ⟨hsound, hextends⟩ := hbody.extends_loop h.sound
  refine h.later hsound hextends (fun v hv => hextends.allocated (h.allocated v hv))
    (List.subset_append_right _ _) ?_
  intro ref href hmem
  rcases List.mem_cons.1 hmem with rfl | hmem
  · exact hself (Control.node_mem_ids href)
  · exact hdisjoint (Control.node_mem_ids hmem) (Control.node_mem_ids href)

theorem branchYes (h : known.Ready scope (.branch n c yes no)) : known.Ready scope yes :=
  ⟨h.sound, h.allocated, fun ref href => h.unbound ref (List.mem_append_left _ href)⟩

theorem branchNo (h : known.Ready scope (.branch n c yes no)) (hdisjoint : yes.ids.Disjoint no.ids)
    (hyes : Lowered links yes known known₁ block) : known₁.Ready scope no := by
  obtain ⟨hsound, hextends⟩ := hyes.extends h.sound
  refine h.later hsound hextends (fun v hv => hextends.allocated (h.allocated v hv))
    (List.subset_append_right _ _) ?_
  exact fun ref href hmem => hdisjoint (Control.node_mem_ids hmem) (Control.node_mem_ids href)

end Known.Ready

end TradeFlow
