import BuildRound.Bus.Account
import BuildRound.Proofs.Hosting
import BuildRound.Proofs.Identities

/-!
# Broadcasts among listeners that react

Every step of a troupe has one true account, whatever its listeners do while they are told of an event. The account
shows a broadcast as one delivery for each registration that stood when it began, and the registrations that stand in
the end follow from the registrations made and removed on the way.
-/

namespace BuildRound.Troupe

/-! ## The stock -/

namespace Stock

theorem size_cons (entry : String × List (List BusStep)) (s : Stock) :
    size (entry :: s) = entry.2.length + size s := by
  have hfrom : ∀ (s : Stock) (n : Nat), s.foldl (fun n entry => n + entry.2.length) n = n + s.size := by
    intro s
    induction s with
    | nil => intro n; rfl
    | cons entry s ih =>
        intro n
        simp only [size, List.foldl_cons, Nat.zero_add] at ih ⊢
        rw [ih, ih entry.2.length, Nat.add_assoc]
  simpa [size] using hfrom s entry.2.length

theorem size_take {s left : Stock} {name : String} {reaction : List BusStep}
    (h : s.take? name = some (reaction, left)) : left.size < s.size := by
  induction s generalizing left with
  | nil => cases h
  | cons entry rest ih =>
      obtain ⟨owner, reactions⟩ := entry
      simp only [take?] at h
      split at h
      · cases reactions with
        | nil => cases h
        | cons next later =>
            cases h
            simp [size_cons]
      · obtain ⟨⟨_, rest'⟩, hrest, heq⟩ := Option.map_eq_some_iff.mp h
        cases heq
        simpa [size_cons] using ih hrest

end Stock

/-! ## Every step has an account -/

/-- The troupe with this bus and this stock once these moments have passed. -/
def after (t : Troupe) (bus : Bus String) (stock : Stock) (u : List Beat) : Troupe :=
  ⟨bus, stock, t.record ++ u.filterMap Beat.happening?⟩

@[simp]
theorem after_bus (t : Troupe) (bus : Bus String) (stock : Stock) (u : List Beat) :
    (t.after bus stock u).bus = bus := rfl

@[simp]
theorem after_stock (t : Troupe) (bus : Bus String) (stock : Stock) (u : List Beat) :
    (t.after bus stock u).stock = stock := rfl

@[simp]
theorem after_after (t : Troupe) (bus bus' : Bus String) (stock stock' : Stock) (u v : List Beat) :
    (t.after bus stock u).after bus' stock' v = t.after bus' stock' (u ++ v) := by
  simp [after]

theorem after_nil (t : Troupe) : t.after t.bus t.stock [] = t := by
  simp [after]

theorem note_delivered (t : Troupe) (name : String) (event : Event) :
    t.note (.delivered name event) = t.after t.bus t.stock [.delivered name event] := rfl

theorem note_reacted (t : Troupe) (name : String) (reply : BusReply) :
    t.note (.reacted name reply) = t.after t.bus t.stock [.reacted name reply] := rfl

/-- Performing this step now comes to a true account and to the reply of that account. -/
def Accounts (perform : BusStep → Troupe → BusReply × Troupe) (step : BusStep) (t : Troupe) : Prop :=
  ∃ a bus stock, Does t.bus t.stock step a bus stock ∧ stock.size ≤ t.stock.size ∧
    perform step t = (a.reply, t.after bus stock a.beats)

section

variable {perform : BusStep → Troupe → BusReply × Troupe} {n : Nat}

theorem react_accounts (hperform : ∀ step (t : Troupe), t.stock.size < n → Accounts perform step t)
    (name : String) (steps : List BusStep) (t : Troupe) (hsize : t.stock.size < n) :
    ∃ deeds bus stock, Reacts t.bus t.stock steps deeds bus stock ∧ stock.size ≤ t.stock.size ∧
      react perform name t steps = t.after bus stock (reactionBeats name deeds) := by
  induction steps generalizing t with
  | nil => exact ⟨[], t.bus, t.stock, .done _ _, Nat.le_refl _, (after_nil t).symm⟩
  | cons step steps ih =>
      obtain ⟨a, bus, stock, hdoes, hle, heq⟩ := hperform step t hsize
      obtain ⟨deeds, bus', stock', hreacts, hle', heq'⟩ :=
        ih (t.after bus stock (a.beats ++ [.reacted name a.reply])) (Nat.lt_of_le_of_lt hle hsize)
      refine ⟨a :: deeds, bus', stock', .step hdoes hreacts, Nat.le_trans hle' hle, ?_⟩
      have hstep : react perform name t (step :: steps)
          = react perform name ((t.after bus stock a.beats).note (.reacted name a.reply)) steps := by
        simp [react, heq]
      rw [hstep, note_reacted, after_bus, after_stock, after_after, heq', after_after]
      simp [reactionBeats]

theorem deliver_accounts (hperform : ∀ step (t : Troupe), t.stock.size < n → Accounts perform step t)
    (event : Event) (names : List String) (t : Troupe) (hsize : t.stock.size ≤ n) :
    ∃ deliveries bus stock, Delivers t.bus t.stock names deliveries bus stock ∧ stock.size ≤ t.stock.size ∧
      names.foldl (deliver perform event) t = t.after bus stock (deliveryBeats event deliveries) := by
  induction names generalizing t with
  | nil => exact ⟨[], t.bus, t.stock, .done _ _, Nat.le_refl _, (after_nil t).symm⟩
  | cons name names ih =>
      cases htake : t.stock.take? name with
      | none =>
          obtain ⟨deliveries, bus, stock, hrest, hle, heq⟩ :=
            ih (t.after t.bus t.stock [.delivered name event]) hsize
          refine ⟨(name, []) :: deliveries, bus, stock, .ignored htake hrest, hle, ?_⟩
          have hone : deliver perform event t name = t.after t.bus t.stock [.delivered name event] := by
            simp [deliver, note_delivered, htake]
          rw [List.foldl_cons, hone, heq, after_after]
          simp [deliveryBeats, reactionBeats]
      | some taken =>
          obtain ⟨reaction, left⟩ := taken
          have hleft := Stock.size_take htake
          obtain ⟨deeds, bus, stock, hreacts, hle, heq⟩ :=
            react_accounts hperform name reaction (t.after t.bus left [.delivered name event])
              (Nat.lt_of_lt_of_le hleft hsize)
          have hsmaller : stock.size ≤ t.stock.size := Nat.le_trans hle (Nat.le_of_lt hleft)
          obtain ⟨deliveries, bus', stock', hrest, hle', heq'⟩ :=
            ih (t.after bus stock ([.delivered name event] ++ reactionBeats name deeds))
              (Nat.le_trans hsmaller hsize)
          refine ⟨(name, deeds) :: deliveries, bus', stock', .answered htake hreacts hrest,
            Nat.le_trans hle' hsmaller, ?_⟩
          have hone : deliver perform event t name
              = react perform name (t.after t.bus left [.delivered name event]) reaction := by
            simp [deliver, note_delivered, htake, after]
          rw [List.foldl_cons, hone, heq, after_after, heq', after_after]
          simp [deliveryBeats]

/-- A broadcast of a troupe with `n` reactions left needs its steps performed with fewer than `n` left only. -/
theorem performWith_accounts (hperform : ∀ step (t : Troupe), t.stock.size < n → Accounts perform step t)
    (step : BusStep) (t : Troupe) (hsize : t.stock.size ≤ n) :
    Accounts (fun step t => performWith perform t step) step t := by
  cases step with
  | register name => exact ⟨_, _, _, .register _ _ name, Nat.le_refl _, by simp [performWith, Account.reply,
      Account.beats, after, Beat.happening?]⟩
  | unregister id => exact ⟨_, _, _, .unregister _ _ id, Nat.le_refl _, by simp [performWith, Account.reply,
      Account.beats, after, Beat.happening?]⟩
  | «show» => exact ⟨_, _, _, .show _ _, Nat.le_refl _, by simp [performWith, Account.reply,
      Account.beats, after]⟩
  | broadcast event =>
      obtain ⟨deliveries, bus, stock, hdelivers, hle, heq⟩ :=
        deliver_accounts hperform event t.bus.listeners t hsize
      refine ⟨.broadcast event deliveries, bus, stock, .broadcast hdelivers, hle, ?_⟩
      simp [performWith, heq, Account.reply, Account.beats, after, List.filterMap_cons, Beat.happening?]

end

theorem performWithin_accounts (depth : Nat) (step : BusStep) (t : Troupe) (hsize : t.stock.size ≤ depth) :
    Accounts (performWithin depth) step t := by
  induction depth generalizing step t with
  | zero => exact performWith_accounts (n := 0) (fun _ _ h => absurd h (Nat.not_lt_zero _)) step t hsize
  | succ depth ih =>
      exact performWith_accounts (fun step t h => ih step t (Nat.le_of_lt_succ h)) step t hsize

theorem perform_accounts (t : Troupe) (step : BusStep) : Accounts (fun step t => t.perform step) step t :=
  performWithin_accounts t.stock.size step t (Nat.le_refl _)

/-! ## The account is the only one -/

mutual

theorem Does.unique {b b₁ b₂ : Bus String} {s s₁ s₂ : Stock} {step : BusStep} {a₁ a₂ : Account}
    (h₁ : Does b s step a₁ b₁ s₁) (h₂ : Does b s step a₂ b₂ s₂) : a₁ = a₂ ∧ b₁ = b₂ ∧ s₁ = s₂ := by
  match h₁, h₂ with
  | .register _ _ _, .register _ _ _ => exact ⟨rfl, rfl, rfl⟩
  | .unregister _ _ _, .unregister _ _ _ => exact ⟨rfl, rfl, rfl⟩
  | .show _ _, .show _ _ => exact ⟨rfl, rfl, rfl⟩
  | .broadcast k₁, .broadcast k₂ =>
      obtain ⟨rfl, rfl, rfl⟩ := Delivers.unique k₁ k₂
      exact ⟨rfl, rfl, rfl⟩

theorem Delivers.unique {b b₁ b₂ : Bus String} {s s₁ s₂ : Stock} {names : List String}
    {ds₁ ds₂ : List (String × List Account)} (h₁ : Delivers b s names ds₁ b₁ s₁)
    (h₂ : Delivers b s names ds₂ b₂ s₂) : ds₁ = ds₂ ∧ b₁ = b₂ ∧ s₁ = s₂ := by
  match h₁, h₂ with
  | .done _ _, .done _ _ => exact ⟨rfl, rfl, rfl⟩
  | .ignored _ k₁, .ignored _ k₂ =>
      obtain ⟨rfl, rfl, rfl⟩ := Delivers.unique k₁ k₂
      exact ⟨rfl, rfl, rfl⟩
  | .ignored hnone _, .answered hsome _ _ => cases hnone.symm.trans hsome
  | .answered hsome _ _, .ignored hnone _ => cases hnone.symm.trans hsome
  | .answered hsome₁ r₁ k₁, .answered hsome₂ r₂ k₂ =>
      cases hsome₁.symm.trans hsome₂
      obtain ⟨rfl, rfl, rfl⟩ := Reacts.unique r₁ r₂
      obtain ⟨rfl, rfl, rfl⟩ := Delivers.unique k₁ k₂
      exact ⟨rfl, rfl, rfl⟩

theorem Reacts.unique {b b₁ b₂ : Bus String} {s s₁ s₂ : Stock} {steps : List BusStep} {deeds₁ deeds₂ : List Account}
    (h₁ : Reacts b s steps deeds₁ b₁ s₁) (h₂ : Reacts b s steps deeds₂ b₂ s₂) :
    deeds₁ = deeds₂ ∧ b₁ = b₂ ∧ s₁ = s₂ := by
  match h₁, h₂ with
  | .done _ _, .done _ _ => exact ⟨rfl, rfl, rfl⟩
  | .step d₁ r₁, .step d₂ r₂ =>
      obtain ⟨rfl, rfl, rfl⟩ := Does.unique d₁ d₂
      obtain ⟨rfl, rfl, rfl⟩ := Reacts.unique r₁ r₂
      exact ⟨rfl, rfl, rfl⟩

end

/-! ## Whom a broadcast goes to -/

theorem Delivers.names {b b' : Bus String} {s s' : Stock} {names : List String}
    {deliveries : List (String × List Account)} (h : Delivers b s names deliveries b' s') :
    deliveries.map (·.1) = names := by
  match h with
  | .done _ _ => rfl
  | .ignored _ hrest => exact congrArg _ (Delivers.names hrest)
  | .answered _ _ hrest => exact congrArg _ (Delivers.names hrest)

/-! ## What a stretch of an account comes to -/

@[simp]
theorem made_append (u v : List Beat) : made (u ++ v) = made u ++ made v :=
  List.filterMap_append

@[simp]
theorem gone_append (u v : List Beat) : gone (u ++ v) = gone u ++ gone v :=
  List.filterMap_append

@[simp]
theorem standing_nil (entries : List (ListenerId × String)) : standing entries [] = entries := by
  simp only [standing, made, gone, List.filterMap_nil, List.append_nil]
  exact List.filter_eq_self.mpr (by simp)

theorem standing_single {o : Beat} (h : o.gone? = none) (entries : List (ListenerId × String)) :
    standing entries [o] = entries ++ o.made?.toList := by
  have hgone : gone [o] = [] := by simp [gone, h]
  have hmade : made [o] = o.made?.toList := by cases hm : o.made? <;> simp [made, hm]
  rw [standing, hgone, hmade, List.filter_eq_self]
  simp

/-- Registrations made later carry none of the ids that were removed before. -/
theorem standing_append {u v : List Beat} (h : ∀ e ∈ made v, e.1 ∉ gone u) (entries : List (ListenerId × String)) :
    standing entries (u ++ v) = standing (standing entries u) v := by
  have hlater : (made v).filter (·.1 ∉ gone u) = made v :=
    List.filter_eq_self.mpr (fun e he => by simpa using h e he)
  have hboth : (fun e : ListenerId × String => decide (e.1 ∉ gone (u ++ v)))
      = fun e => decide (e.1 ∉ gone v) && decide (e.1 ∉ gone u) := by
    funext e
    simp [Bool.and_comm]
  simp only [standing, made_append, hboth, ← List.filter_filter, ← List.append_assoc]
  rw [List.filter_append _ (made v), hlater]

/-- From the first bus to the second one these moments passed. -/
structure Tells (b : Bus String) (u : List Beat) (b' : Bus String) : Prop where
  next_le : b.next ≤ b'.next
  /-- The ids of the registrations made were handed out on the way. -/
  made_fresh : ∀ e ∈ made u, b.next ≤ e.1.number ∧ e.1.number < b'.next
  gone_taken : ∀ id ∈ gone u, id.number < b'.next
  entries : b'.entries = standing b.entries u
  /-- Each broadcast goes to those that stand when it begins. -/
  began : ∀ v event names w, u = v ++ .began event names :: w → names = (standing b.entries v).map (·.2)

namespace Tells

variable {b b' b'' : Bus String} {u v : List Beat}

theorem numbered (h : Tells b u b') (hb : b.Numbered) : b'.Numbered := by
  intro e he
  rw [h.entries] at he
  rcases List.mem_append.mp (List.mem_filter.mp he).1 with he | he
  · exact Nat.lt_of_lt_of_le (hb e he) h.next_le
  · exact (h.made_fresh e he).2

theorem refl (b : Bus String) : Tells b [] b where
  next_le := Nat.le_refl _
  made_fresh := by simp [made]
  gone_taken := by simp [gone]
  entries := (standing_nil _).symm
  began := by simp

theorem trans (h : Tells b u b') (k : Tells b' v b'') : Tells b (u ++ v) b'' where
  next_le := Nat.le_trans h.next_le k.next_le
  made_fresh e he := by
    rcases List.mem_append.mp (made_append u v ▸ he) with he | he
    · exact ⟨(h.made_fresh e he).1, Nat.lt_of_lt_of_le (h.made_fresh e he).2 k.next_le⟩
    · exact ⟨Nat.le_trans h.next_le (k.made_fresh e he).1, (k.made_fresh e he).2⟩
  gone_taken id hid := by
    rcases List.mem_append.mp (gone_append u v ▸ hid) with hid | hid
    · exact Nat.lt_of_lt_of_le (h.gone_taken id hid) k.next_le
    · exact k.gone_taken id hid
  entries := by
    have hlater : ∀ e ∈ made v, e.1 ∉ gone u := fun e he hgone =>
      absurd (h.gone_taken _ hgone) (Nat.not_lt.mpr (k.made_fresh e he).1)
    rw [k.entries, h.entries, standing_append hlater]
  began w event names w' heq := by
    rcases append_split heq with ⟨x, hx, -⟩ | ⟨x, rfl, hx⟩
    · exact h.began w event names x hx
    · -- the broadcast begins in the second stretch
      have hlater : ∀ e ∈ made x, e.1 ∉ gone u := by
        intro e he hgone
        have hmade : e ∈ made v := by
          rw [hx, made_append]
          exact List.mem_append_left _ he
        exact absurd (h.gone_taken _ hgone) (Nat.not_lt.mpr (k.made_fresh e hmade).1)
      rw [standing_append hlater, ← h.entries]
      exact k.began x event names w' hx

/-- A moment that changes no registration. -/
theorem quiet {o : Beat} (hmade : o.made? = none) (hgone : o.gone? = none)
    (hbegan : ∀ event names, o = .began event names → names = b.listeners) : Tells b [o] b where
  next_le := Nat.le_refl _
  made_fresh := by simp [made, hmade]
  gone_taken := by simp [gone, hgone]
  entries := by rw [standing_single hgone, hmade, Option.toList_none, List.append_nil]
  began v event names w heq := by
    cases v with
    | nil =>
        cases heq
        rw [standing_nil]
        exact hbegan event names rfl
    | cons p v => simp at heq

theorem register (b : Bus String) (name : String) :
    Tells b [.registered name (b.register name).1] (b.register name).2 where
  next_le := Nat.le_succ _
  made_fresh := by simp [made, Beat.made?, Bus.register, Bus.takeId, Bus.push]
  gone_taken := by simp [gone, Beat.gone?]
  entries := (standing_single (o := .registered name (b.register name).1) rfl b.entries).symm
  began v event names w heq := by cases v <;> simp at heq

theorem unregister {b : Bus String} (hb : b.Numbered) (id : ListenerId) :
    Tells b [.unregistered id (b.unregister id).1] (b.unregister id).2 := by
  by_cases hmem : id ∈ b.entries.map (·.1)
  · obtain ⟨e, he, rfl⟩ := List.mem_map.mp hmem
    have hfound : (b.unregister e.1).1 = true := by simpa [Bus.unregister] using ⟨e.2, he⟩
    rw [hfound]
    exact {
      next_le := Nat.le_refl _
      made_fresh := by simp [made, Beat.made?]
      gone_taken := fun id hid => by
        obtain rfl : id = e.1 := by simpa [gone, Beat.gone?] using hid
        exact hb e he
      entries := by simp [standing, made, gone, Beat.made?, Beat.gone?, Bus.unregister]
      began := fun v event names w heq => by cases v <;> simp at heq
    }
  · rw [Bus.unregister_of_not_mem hmem]
    exact quiet rfl rfl (by simp)

end Tells

/-! ## Registrations on the way -/

mutual

theorem Does.tells {b b' : Bus String} {s s' : Stock} {step : BusStep} {a : Account}
    (h : Does b s step a b' s') (hb : b.Numbered) : Tells b a.beats b' := by
  match h with
  | .register _ _ name => exact .register b name
  | .unregister _ _ id => exact .unregister hb id
  | .show _ _ => exact .refl b
  | @Does.broadcast _ _ _ _ event _ k =>
      have hbegan : Tells b [.began event b.listeners] b :=
        .quiet rfl rfl (fun _ _ heq => by cases heq; rfl)
      rw [Account.beats, Delivers.names k]
      exact hbegan.trans (Delivers.tells event k hb)

theorem Delivers.tells {b b' : Bus String} {s s' : Stock} {names : List String}
    {deliveries : List (String × List Account)} (event : Event) (h : Delivers b s names deliveries b' s')
    (hb : b.Numbered) : Tells b (deliveryBeats event deliveries) b' := by
  match h with
  | .done _ _ => exact .refl b
  | @Delivers.ignored _ _ _ _ name _ _ _ hrest =>
      have hone : Tells b [.delivered name event] b := .quiet rfl rfl (by simp)
      exact hone.trans (Delivers.tells event hrest hb)
  | @Delivers.answered _ _ _ _ _ _ _ name _ _ _ _ _ hreact hrest =>
      have hone : Tells b [.delivered name event] b := .quiet rfl rfl (by simp)
      have hreacts := hone.trans (Reacts.tells name hreact hb)
      simpa [deliveryBeats] using hreacts.trans (Delivers.tells event hrest (hreacts.numbered hb))

theorem Reacts.tells {b b' : Bus String} {s s' : Stock} {steps : List BusStep} {deeds : List Account}
    (name : String) (h : Reacts b s steps deeds b' s') (hb : b.Numbered) :
    Tells b (reactionBeats name deeds) b' := by
  match h with
  | .done _ _ => exact .refl b
  | @Reacts.step _ _ _ _ _ _ _ _ a _ hdoes hrest =>
      have hdone := (Does.tells hdoes hb).trans (.quiet (o := .reacted name a.reply) rfl rfl (by simp))
      simpa [reactionBeats] using hdone.trans (Reacts.tells name hrest (hdone.numbered hb))

end

/-! ## A broadcast is told without a break -/

mutual

theorem Account.began_whole (a : Account) {v w : List Beat} {event : Event} {names : List String}
    (h : a.beats = v ++ .began event names :: w) :
    ∃ deliveries rest, deliveries.map (·.1) = names ∧ w = deliveryBeats event deliveries ++ rest ∧
      (v = [] ∧ rest = [] ∧ a.reply = .nothing ∨ ∃ owner more, rest = .reacted owner .nothing :: more) := by
  match a with
  | .registered _ _ => cases v <;> simp [Account.beats] at h
  | .unregistered _ _ => cases v <;> simp [Account.beats] at h
  | .shown _ => simp [Account.beats] at h
  | .broadcast _ deliveries =>
      cases v with
      | nil =>
          cases h
          exact ⟨deliveries, [], rfl, (List.append_nil _).symm, .inl ⟨rfl, rfl, rfl⟩⟩
      | cons o v =>
          obtain ⟨inner, rest, hnames, hw, hrest⟩ := deliveryBeats_began_whole _ deliveries (List.cons.inj h).2
          exact ⟨inner, rest, hnames, hw, .inr hrest⟩

theorem deliveryBeats_began_whole (outer : Event) (deliveries : List (String × List Account)) {v w : List Beat}
    {event : Event} {names : List String} (h : deliveryBeats outer deliveries = v ++ .began event names :: w) :
    ∃ inner rest, inner.map (·.1) = names ∧ w = deliveryBeats event inner ++ rest ∧
      ∃ owner more, rest = .reacted owner .nothing :: more := by
  match deliveries with
  | [] => simp [deliveryBeats] at h
  | (name, deeds) :: later =>
      cases v with
      | nil => cases h
      | cons o v =>
          rcases append_split (List.cons.inj h).2 with ⟨w₁, h₁, rfl⟩ | ⟨v₂, -, h₂⟩
          · obtain ⟨inner, rest, hnames, rfl, owner, more, rfl⟩ := reactionBeats_began_whole name deeds h₁
            exact ⟨inner, _, hnames, List.append_assoc _ _ _, owner, _, rfl⟩
          · exact deliveryBeats_began_whole outer later h₂

theorem reactionBeats_began_whole (name : String) (deeds : List Account) {v w : List Beat} {event : Event}
    {names : List String} (h : reactionBeats name deeds = v ++ .began event names :: w) :
    ∃ inner rest, inner.map (·.1) = names ∧ w = deliveryBeats event inner ++ rest ∧
      ∃ owner more, rest = .reacted owner .nothing :: more := by
  match deeds with
  | [] => simp [reactionBeats] at h
  | a :: later =>
      rcases append_split h with ⟨w₁, h₁, rfl⟩ | ⟨v₂, -, h₂⟩
      · obtain ⟨inner, rest, hnames, rfl, ⟨-, rfl, hreply⟩ | ⟨owner, more, rfl⟩⟩ := Account.began_whole a h₁
        · exact ⟨inner, _, hnames, List.append_assoc _ _ _, name, _, by rw [hreply]; rfl⟩
        · exact ⟨inner, _, hnames, List.append_assoc _ _ _, owner, _, rfl⟩
      · cases v₂ with
        | nil => cases h₂
        | cons o v₂ => exact reactionBeats_began_whole name later (List.cons.inj h₂).2

end

/-! ## Broadcasts -/

/-- The broadcast comes to these deliveries and leaves this bus and this stock. -/
structure Broadcasts (t : Troupe) (event : Event) (deliveries : List (String × List Account)) (bus : Bus String)
    (stock : Stock) : Prop where
  performed : t.perform (.broadcast event)
    = (.nothing, t.after bus stock (Account.broadcast event deliveries).beats)
  does : Does t.bus t.stock (.broadcast event) (.broadcast event deliveries) bus stock
  only : ∀ a bus' stock', Does t.bus t.stock (.broadcast event) a bus' stock' →
    a = .broadcast event deliveries ∧ bus' = bus ∧ stock' = stock
  /-- One delivery for each registration that stood at the beginning, in the order of registration. -/
  snapshot : deliveries.map (·.1) = t.bus.listeners
  /-- A nested broadcast goes to those that stand when it begins. All its deliveries come next, and only when they are
  over is it answered to the listener that broadcast it. -/
  nested : ∀ before inner names later,
    (Account.broadcast event deliveries).beats = before ++ .began inner names :: later →
      names = (standing t.bus.entries before).map (·.2) ∧
        ∃ within rest, within.map (·.1) = names ∧ later = deliveryBeats inner within ++ rest ∧
          (before = [] ∧ rest = [] ∨ ∃ owner more, rest = .reacted owner .nothing :: more)
  left : bus.entries = standing t.bus.entries (Account.broadcast event deliveries).beats

theorem broadcast_reaches_snapshot (t : Troupe) (event : Event) (hnumbered : t.bus.Numbered) :
    ∃ deliveries bus stock, t.Broadcasts event deliveries bus stock := by
  obtain ⟨a, bus, stock, hdoes, -, hperform⟩ := perform_accounts t (.broadcast event)
  have htells := hdoes.tells hnumbered
  cases hdoes with
  | broadcast hdelivers =>
      rename_i deliveries
      exact ⟨deliveries, bus, stock, {
        performed := hperform
        does := .broadcast hdelivers
        only := fun a' bus' stock' h => Does.unique h (.broadcast hdelivers)
        snapshot := hdelivers.names
        nested := by
          intro before inner names later heq
          obtain ⟨within, rest, hnames, hlater, hrest⟩ := Account.began_whole _ heq
          refine ⟨htells.began before inner names later heq, within, rest, hnames, hlater, ?_⟩
          exact hrest.imp_left (fun h => ⟨h.1, h.2.1⟩)
        left := htells.entries
      }⟩

/-- The first of two listeners registers a third one, removes the second one and broadcasts, all while it is told of
an event. -/
def reentrant : Troupe where
  bus := ⟨2, [(⟨0⟩, "a"), (⟨1⟩, "b")]⟩
  stock := [("a", [[.register "c", .unregister ⟨1⟩, .broadcast (.started ⟨⟨"inner"⟩, "", .normal, []⟩)]])]

theorem broadcast_reaches_snapshot_reentrant : reentrant.bus.Numbered ∧ ∃ deliveries bus stock,
    reentrant.Broadcasts (.started ⟨⟨"outer"⟩, "", .normal, []⟩) deliveries bus stock ∧
      deliveries.map (·.1) = ["a", "b"] ∧ bus.entries = [(⟨0⟩, "a"), (⟨2⟩, "c")] := by
  have hnumbered : reentrant.bus.Numbered := by simp [reentrant, Bus.Numbered]
  obtain ⟨deliveries, bus, stock, h⟩ :=
    broadcast_reaches_snapshot reentrant (.started ⟨⟨"outer"⟩, "", .normal, []⟩) hnumbered
  have hleft : (reentrant.perform (.broadcast (.started ⟨⟨"outer"⟩, "", .normal, []⟩))).2.bus.entries
      = [(⟨0⟩, "a"), (⟨2⟩, "c")] := by decide
  rw [h.performed] at hleft
  exact ⟨hnumbered, deliveries, bus, stock, h, h.snapshot, hleft⟩

end BuildRound.Troupe
