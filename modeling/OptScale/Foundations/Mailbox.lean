import OptScale.Foundations.Run

/-!
# Foundations/Mailbox — messages handled one at a time, in any order

A mailbox is a store and the messages in flight.  A delivery takes one of the messages, at any place,
and handles it: the handler changes the store and says what is in flight in the message's stead — its
continuation, the messages it gave rise to, the message itself where it was not acknowledged.  A run of
deliveries is a `Run`; `deliver_cases` says once what a delivery does.
-/

/-- A store, and the messages in flight. -/
structure Mailbox (τ μ : Type*) where
  store : τ
  queue : List μ

namespace Mailbox

variable {τ μ ι : Type*} {handle : ι → τ → μ → τ × List μ}

/-- The message at a place is delivered, under the circumstances `d.2`. -/
def deliver (handle : ι → τ → μ → τ × List μ) (s : Mailbox τ μ) (d : ℕ × ι) :
    Option (Mailbox τ μ) :=
  s.queue[d.1]?.map fun m =>
    ⟨(handle d.2 s.store m).1, s.queue.eraseIdx d.1 ++ (handle d.2 s.store m).2⟩

/-- **What a delivery does**: one message goes, and what its handling gives comes. -/
theorem deliver_cases {s s' : Mailbox τ μ} {d : ℕ × ι} (h : deliver handle s d = some s') :
    ∃ m l r, s.queue[d.1]? = some m ∧ s.queue = l ++ m :: r ∧
      s'.store = (handle d.2 s.store m).1 ∧ s'.queue = l ++ r ++ (handle d.2 s.store m).2 := by
  obtain ⟨m, hm, rfl⟩ := Option.map_eq_some_iff.mp h
  obtain ⟨hlt, hget⟩ := List.getElem?_eq_some_iff.mp hm
  refine ⟨m, s.queue.take d.1, s.queue.drop (d.1 + 1), hm, ?_, rfl, ?_⟩
  · rw [← hget, ← List.drop_eq_getElem_cons hlt, List.take_append_drop]
  · rw [List.eraseIdx_eq_take_drop_succ]

variable {I : τ → Prop} {J : τ → μ → Prop}

/-- `I` holds of the store, and `J` of every message in flight. -/
def Holds (I : τ → Prop) (J : τ → μ → Prop) (s : Mailbox τ μ) : Prop :=
  I s.store ∧ ∀ m ∈ s.queue, J s.store m

/-- **The invariant rule of a mailbox**: the handling of a message has to restore the invariant of the
store, keep that of the other messages, and establish it for the new ones. -/
theorem Holds.deliver {s s' : Mailbox τ μ} {d : ℕ × ι} (hs : Holds I J s)
    (h : Mailbox.deliver handle s d = some s')
    (hstore : ∀ m, s.queue[d.1]? = some m → I (handle d.2 s.store m).1)
    (hkeep : ∀ m m', s.queue[d.1]? = some m → J s.store m' → J (handle d.2 s.store m).1 m')
    (hnew : ∀ m, s.queue[d.1]? = some m →
      ∀ m' ∈ (handle d.2 s.store m).2, J (handle d.2 s.store m).1 m') : Holds I J s' := by
  obtain ⟨m, l, r, hm, hqueue, hst, hq⟩ := deliver_cases h
  refine ⟨hst ▸ hstore m hm, fun m' hm' => hst ▸ ?_⟩
  rw [hq, List.mem_append] at hm'
  rcases hm' with hold | hout
  · have : m' ∈ s.queue := by
      rw [hqueue]
      rcases List.mem_append.mp hold with hl | hr
      · exact List.mem_append_left _ hl
      · exact List.mem_append_right _ (List.mem_cons_of_mem _ hr)
    exact hkeep m m' hm (hs.2 m' this)
  · exact hnew m hm m' hout

/-- **Messages are counted**: a delivery takes one of those that satisfy `p`, if its message does, and
adds what its handling gives. -/
theorem countP_deliver {s s' : Mailbox τ μ} {d : ℕ × ι} (p : μ → Bool)
    (h : deliver handle s d = some s') : ∃ m, s.queue[d.1]? = some m ∧
      s'.queue.countP p + (if p m then 1 else 0) =
        s.queue.countP p + ((handle d.2 s.store m).2).countP p := by
  obtain ⟨m, l, r, hm, hqueue, -, hq⟩ := deliver_cases h
  refine ⟨m, hm, ?_⟩
  rw [hq, hqueue]
  simp only [List.countP_append, List.countP_cons]
  omega

end Mailbox
