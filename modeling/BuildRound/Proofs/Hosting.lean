import BuildRound.Proofs.Flow

/-!
# A listener among others

What the engine does with its own listeners and the stay of the board of a round on the same bus do not
interfere: ids are never handed out twice, so the others are what they would be without the board.
-/

namespace BuildRound

/-! ## Ids that were handed out -/

/-- The bus handed out every id that stands on it. -/
def Bus.Numbered {ℓ : Type} (b : Bus ℓ) : Prop :=
  ∀ e ∈ b.entries, e.1.number < b.next

theorem Bus.numbered_empty {ℓ : Type} : ({} : Bus ℓ).Numbered := by
  simp [Numbered]

theorem Bus.Numbered.register {ℓ : Type} {b : Bus ℓ} (h : b.Numbered) (l : ℓ) :
    (b.register l).2.Numbered := by
  intro e he
  simp only [Bus.register, Bus.takeId, Bus.push, List.mem_append, List.mem_singleton] at he ⊢
  rcases he with he | rfl
  · exact Nat.lt_succ_of_lt (h e he)
  · exact Nat.lt_succ_self _

theorem Bus.Numbered.unregister {ℓ : Type} {b : Bus ℓ} (h : b.Numbered) (id : ListenerId) :
    (b.unregister id).2.Numbered := by
  intro e he
  exact h e (List.mem_filter.mp he).1

/-! ## Entries -/

namespace Record

theorem Noise.enrolled {t : Record} (h : t.Noise) (es : List (ListenerId × Listener)) :
    t.enrolled es = es := by
  induction t with
  | nil => rfl
  | cons o t ih =>
      obtain ⟨token, rfl⟩ := h o (by simp)
      exact ih (fun p hp => h p (by simp [hp]))

end Record

/-! ## The bus -/

namespace Bus

variable {b b' : Bus Listener} {t : Record}

theorem Follows.eq_of_noise (h : b.Follows t b') (ht : t.Noise) : b' = b := by
  have hregistered : t.filterMap Occurrence.registered? = [] := by
    refine List.filterMap_eq_nil_iff.mpr (fun o ho => ?_)
    obtain ⟨token, rfl⟩ := ht o ho
    rfl
  obtain ⟨next, entries⟩ := b
  obtain ⟨next', entries'⟩ := b'
  have hentries := h.entries
  have hnext := h.next
  simp_all [ht.enrolled]

theorem Numbered.follows (h : b.Numbered) (k : b.Follows t b') : b'.Numbered := by
  intro e he
  rw [k.entries] at he
  rcases Record.mem_enrolled he with he | ⟨o, ho, hid⟩
  · exact Nat.lt_of_lt_of_le (h e he) k.next_le
  · exact (k.fresh o ho e.1 hid).2

/-- Besides the listener with this id, which has been handed out, these others are on the bus. -/
structure Hosts (b : Bus Listener) (id : ListenerId) (others : List (ListenerId × Listener)) : Prop where
  others : b.entries.filter (·.1 ≠ id) = others
  taken : id.number < b.next

theorem Numbered.hosts (h : b.Numbered) (l : Listener) :
    (b.register l).2.Hosts (b.register l).1 b.entries := by
  refine ⟨?_, Nat.lt_succ_self _⟩
  simp only [Bus.register, Bus.takeId, Bus.push, List.filter_append]
  rw [List.filter_eq_self.mpr]
  · simp
  · intro e he
    have hlt := h e he
    have hne : e.1 ≠ ⟨b.next⟩ := fun heq => by simp [heq] at hlt
    exact decide_eq_true hne

theorem Hosts.follows {id : ListenerId} {others : List (ListenerId × Listener)} (h : b.Hosts id others)
    (k : b.Follows t b') : b'.Hosts id (t.enrolled others) := by
  refine ⟨?_, Nat.lt_of_lt_of_le h.taken k.next_le⟩
  have hfresh : ∀ o ∈ t, o.registered? ≠ some id := by
    intro o ho hid
    exact absurd h.taken (Nat.not_lt.mpr (k.fresh o ho id hid).1)
  rw [k.entries, Record.enrolled_filter hfresh, h.others]

end Bus

end BuildRound
