import OptScale.Foundations.Forest

/-!
# Foundations/Descent — what is below a row of a forest

A row's family is the row and all that is below it.  It is made of the row and the families of its children, each
row of it once (`family_perm`), so what a family comes to is what the row has and what the families of the
children come to (`total_eq`).  On the way down ever fewer rows are of a higher rank (`levels_lt`), which bounds a
recursion along the children.
-/

namespace Forest

variable {α κ M : Type*} {key : α → κ} {parent : α → Option κ} {rows : List α}

variable (key parent rows) in
/-- `q` is a child of `p`. -/
def Child (p q : α) : Prop := p ∈ rows ∧ q ∈ rows ∧ parent q = some (key p)

variable (key parent rows) in
/-- `q` is `p`, or below it. -/
abbrev Below (p q : α) : Prop := Relation.ReflTransGen (Child key parent rows) p q

variable (key parent rows) in
open Classical in
/-- The row and all that is below it. -/
noncomputable def family (p : α) : List α := rows.filter fun q => Below key parent rows p q

variable (key parent rows) in
/-- What a family comes to. -/
noncomputable def total [AddCommMonoid M] (f : α → M) (p : α) : M := ((family key parent rows p).map f).sum

theorem mem_family {p q : α} : q ∈ family key parent rows p ↔ q ∈ rows ∧ Below key parent rows p q := by
  simp [family]

/-- A weaker condition that one more row meets holds of more rows. -/
theorem length_filter_lt {p q : α → Bool} (hpq : ∀ a, p a = true → q a = true) {a : α} (ha : a ∈ rows)
    (hq : q a = true) (hp : p a = false) : (rows.filter p).length < (rows.filter q).length := by
  rw [← List.countP_eq_length_filter, ← List.countP_eq_length_filter]
  obtain ⟨l, l', hl⟩ := List.append_of_mem ha
  have hle := List.countP_mono_left (l := l) fun b _ => hpq b
  have hle' := List.countP_mono_left (l := l') fun b _ => hpq b
  rw [hl]
  simp only [List.countP_append, List.countP_cons, hq, hp, if_true, Bool.false_eq_true, if_false]
  omega

section Ranked

variable {rank : κ → ℕ} (hnodup : (rows.map key).Nodup)
  (hrank : ∀ r ∈ rows, ∀ a, parent r = some a → rank a < rank (key r))

include hrank in
theorem rank_le_of_below {p q : α} (h : Below key parent rows p q) : rank (key p) ≤ rank (key q) := by
  induction h with
  | refl => exact le_refl _
  | tail _ hchild ih => exact ih.trans (hrank _ hchild.2.1 _ hchild.2.2).le

include hnodup in
/-- A row has one parent. -/
theorem child_unique {p p' q : α} (h : Child key parent rows p q) (h' : Child key parent rows p' q) : p = p' :=
  List.inj_on_of_nodup_map hnodup h.1 h'.1 (Option.some.inj (h.2.2.symm.trans h'.2.2))

include hnodup in
/-- Who are above one row are above each other. -/
theorem below_or_below {p p' q : α} (h : Below key parent rows p q) (h' : Below key parent rows p' q) :
    Below key parent rows p p' ∨ Below key parent rows p' p := by
  have hunique : Relator.RightUnique (Function.swap (Child key parent rows)) :=
    fun _ _ _ hp hp' => child_unique hnodup hp hp'
  obtain hup | hup := Relation.ReflTransGen.total_of_right_unique hunique
    (Relation.reflTransGen_swap.mpr h) (Relation.reflTransGen_swap.mpr h')
  · exact Or.inr (Relation.reflTransGen_swap.mp hup)
  · exact Or.inl (Relation.reflTransGen_swap.mp hup)

include hnodup hrank in
/-- **No row is below two children of a row.** -/
theorem child_eq_of_below {p c c' q : α} (hc : Child key parent rows p c) (hc' : Child key parent rows p c')
    (h : Below key parent rows c q) (h' : Below key parent rows c' q) : c = c' := by
  -- what is below a child of `p` and has the parent `p` is that child
  have hchild : ∀ {c c' : α}, Child key parent rows p c → Child key parent rows p c' → Below key parent rows c c' →
      c = c' := by
    intro c c' hc hc' hbelow
    obtain rfl | ⟨b, hb, hb'⟩ := Relation.ReflTransGen.cases_tail_iff _ _ _ |>.mp hbelow
    · rfl
    · obtain rfl := child_unique hnodup hb' hc'
      have hle := rank_le_of_below hrank hb
      have hlt := hrank c hc.2.1 _ hc.2.2
      omega
  obtain hbelow | hbelow := below_or_below hnodup h h'
  · exact hchild hc hc' hbelow
  · exact (hchild hc' hc hbelow).symm

include hrank in
/-- **Ever fewer rows are of a higher rank.** -/
theorem levels_lt {p c : α} (hc : Child key parent rows p c) :
    (rows.filter fun q => rank (key c) < rank (key q)).length <
      (rows.filter fun q => rank (key p) < rank (key q)).length := by
  have hlt := hrank c hc.2.1 _ hc.2.2
  refine length_filter_lt (fun q hq => ?_) hc.2.1 (decide_eq_true hlt) (by simp)
  exact decide_eq_true (hlt.trans (of_decide_eq_true hq))

include hrank in
/-- **Ever more rows are of a lower rank.** -/
theorem depth_lt {p c : α} (hc : Child key parent rows p c) :
    (rows.filter fun q => rank (key q) < rank (key p)).length <
      (rows.filter fun q => rank (key q) < rank (key c)).length := by
  have hlt := hrank c hc.2.1 _ hc.2.2
  refine length_filter_lt (fun q hq => ?_) hc.1 (decide_eq_true hlt) (by simp)
  exact decide_eq_true ((of_decide_eq_true hq).trans hlt)

variable [DecidableEq κ]

variable (key parent rows) in
/-- The children of a row. -/
def children (p : α) : List α := rows.filter fun q => parent q = some (key p)

theorem mem_children {p q : α} (hp : p ∈ rows) : q ∈ children key parent rows p ↔ Child key parent rows p q := by
  rw [children, List.mem_filter, decide_eq_true_eq]
  exact ⟨fun h => ⟨hp, h⟩, And.right⟩

include hnodup hrank in
/-- **A family is the row and the families of its children.** -/
theorem family_perm {p : α} (hp : p ∈ rows) : (family key parent rows p).Perm
    (p :: (children key parent rows p).flatMap (family key parent rows)) := by
  have hrows : rows.Nodup := hnodup.of_map key
  refine (List.perm_ext_iff_of_nodup (hrows.filter _) ?_).mpr fun q => ?_
  · refine List.nodup_cons.mpr ⟨fun h => ?_, List.nodup_flatMap.mpr ⟨fun c _ => hrows.filter _, ?_⟩⟩
    · obtain ⟨c, hc, hpc⟩ := List.mem_flatMap.mp h
      have hchild := (mem_children hp).mp hc
      have hle := rank_le_of_below hrank (mem_family.mp hpc).2
      have hlt := hrank c hchild.2.1 _ hchild.2.2
      omega
    · refine (hrows.filter (fun q => parent q = some (key p))).imp_of_mem fun {c c'} hc hc' hne => ?_
      refine List.disjoint_left.mpr fun q hq hq' => hne ?_
      exact child_eq_of_below hnodup hrank ((mem_children hp).mp hc) ((mem_children hp).mp hc')
        (mem_family.mp hq).2 (mem_family.mp hq').2
  · refine mem_family.trans ?_
    rw [List.mem_cons, List.mem_flatMap]
    constructor
    · rintro ⟨hq, hbelow⟩
      obtain rfl | ⟨c, hc, hcq⟩ := Relation.ReflTransGen.cases_head_iff.mp hbelow
      · exact Or.inl rfl
      · exact Or.inr ⟨c, (mem_children hp).mpr hc, mem_family.mpr ⟨hq, hcq⟩⟩
    · rintro (rfl | ⟨c, hc, hcq⟩)
      · exact ⟨hp, .refl⟩
      · obtain ⟨hq, hbelow⟩ := mem_family.mp hcq
        exact ⟨hq, .head ((mem_children hp).mp hc) hbelow⟩

include hnodup hrank in
/-- **What a family comes to.** -/
theorem total_eq [AddCommMonoid M] (f : α → M) {p : α} (hp : p ∈ rows) :
    total key parent rows f p = f p + ((children key parent rows p).map (total key parent rows f)).sum := by
  have hsum : ∀ cs : List α, ((cs.flatMap (family key parent rows)).map f).sum =
      (cs.map (total key parent rows f)).sum := by
    intro cs
    induction cs with
    | nil => rfl
    | cons c cs ih =>
      rw [List.flatMap_cons, List.map_append, List.sum_append, ih, List.map_cons, List.sum_cons, total]
  rw [total, ((family_perm hnodup hrank hp).map f).sum_eq, List.map_cons, List.sum_cons, hsum]

end Ranked

end Forest
