import OptScale.Foundations.Table

/-!
# Foundations/Followers — rows that follow a leader

A row may refer to a leader by its key, and then agrees with it.  `Follows` says that every
reference has a leader among the rows; it is kept by a change that treats followers and leaders
alike (`map`), by rows that join a leader which does not change (`join`), by a row that refers to a
leader or to nobody (`add`), and by dropping rows that lead nobody (`filter`).
-/

section Followers

variable {α κ : Type*} (key : α → κ) (leads : α → Prop) (refersTo : α → κ → Prop)
  (agrees : α → α → Prop)

/-- A leader for `r`, under the key `c`. -/
def Led (rows : List α) (r : α) (c : κ) : Prop :=
  ∃ k ∈ rows, leads k ∧ key k = c ∧ agrees k r

/-- **Every reference has a leader that agrees.** -/
def Follows (rows : List α) : Prop :=
  ∀ r ∈ rows, ∀ c, refersTo r c → Led key leads agrees rows r c

variable {key leads refersTo agrees} {rows : List α}

theorem follows_nil : Follows key leads refersTo agrees [] := fun _ h => absurd h List.not_mem_nil

/-- **A change of all rows**: whoever refers after it did before, and where leader and follower
agreed they still do. -/
theorem Follows.map (h : Follows key leads refersTo agrees rows) {f : α → α}
    (hkey : ∀ r ∈ rows, key (f r) = key r)
    (hstay : ∀ r ∈ rows, ∀ c, refersTo (f r) c → refersTo r c)
    (hcarry : ∀ r ∈ rows, ∀ k ∈ rows, refersTo (f r) (key k) → leads k → agrees k r →
      leads (f k) ∧ agrees (f k) (f r)) :
    Follows key leads refersTo agrees (rows.map f) := by
  intro r' hr' c hc
  obtain ⟨r, hr, rfl⟩ := List.mem_map.mp hr'
  obtain ⟨k, hk, hleads, rfl, hagrees⟩ := h r hr c (hstay r hr c hc)
  obtain ⟨hleads', hagrees'⟩ := hcarry r hr k hk hc hleads hagrees
  exact ⟨f k, List.mem_map_of_mem hk, hleads', hkey k hk, hagrees'⟩

/-- **Rows join a leader**: what leads is left alone, and a row that refers after the change was
left alone too or has a leader of its own. -/
theorem Follows.join (h : Follows key leads refersTo agrees rows) {f : α → α}
    (hlead : ∀ k ∈ rows, leads k → f k = k)
    (hjoin : ∀ r ∈ rows, ∀ c, refersTo (f r) c → f r = r ∨ Led key leads agrees rows (f r) c) :
    Follows key leads refersTo agrees (rows.map f) := by
  intro r' hr' c hc
  obtain ⟨r, hr, rfl⟩ := List.mem_map.mp hr'
  have hled : Led key leads agrees rows (f r) c := by
    rcases hjoin r hr c hc with hsame | hled
    · rw [hsame] at hc ⊢
      exact h r hr c hc
    · exact hled
  obtain ⟨k, hk, hleads, hkey, hagrees⟩ := hled
  exact ⟨k, List.mem_map.mpr ⟨k, hk, hlead k hk hleads⟩, hleads, hkey, hagrees⟩

/-- **A row joins its leader, or nobody.** -/
theorem Follows.add (h : Follows key leads refersTo agrees rows) {a : α}
    (ha : ∀ c, refersTo a c → Led key leads agrees rows a c) :
    Follows key leads refersTo agrees (rows ++ [a]) := by
  intro r hr c hc
  have hled : Led key leads agrees rows r c := by
    obtain hr | hr := List.mem_append.mp hr
    · exact h r hr c hc
    · obtain rfl := List.mem_singleton.mp hr
      exact ha c hc
  obtain ⟨k, hk, hleader⟩ := hled
  exact ⟨k, List.mem_append_left _ hk, hleader⟩

/-- **Rows that lead nobody are dropped.** -/
theorem Follows.filter (h : Follows key leads refersTo agrees rows) {p : α → Bool}
    (hp : ∀ k ∈ rows, leads k → p k) : Follows key leads refersTo agrees (rows.filter p) := by
  intro r hr c hc
  obtain ⟨k, hk, hleads, hleader⟩ := h r (List.mem_of_mem_filter hr) c hc
  exact ⟨k, List.mem_filter.mpr ⟨hk, hp k hk hleads⟩, hleads, hleader⟩

end Followers
