import GateServer.Interact.Lending

/-!
# Custody

The things that are lent have a state of their own, which outlives the loan. An operation
accesses the state of certain things only. If every borrower accesses only what it holds,
what a borrower knows of a thing it holds changes by its own steps alone.
-/

namespace Interact

variable {Op : Type} {Ans : Op → Type} {ι α W C S : Type}

/-- The state of the things, the part of it that an operation accesses, and what an event does
to it, depending on the job that acts. -/
structure Carrier (Ans : Op → Type) (ι C S : Type) where
  reaches : Op → C → Prop
  act : ι → (C → S) → Event Ans → (C → S) → Prop
  frame : act i s ev s' → ¬ reaches ev.op x → s' x = s x

/-- An event with the job that acts and the state of the things before it. -/
structure Moment (Ans : Op → Type) (ι C S : Type) where
  job : ι
  ev : Event Ans
  carried : C → S

/-- An interleaving with the state of the things and all the moments so far. -/
inductive Carries (A : Arena Ans W) (K : Carrier Ans ι C S) (c₀ : Config Ans ι α W) (s₀ : C → S) :
    Config Ans ι α W → (C → S) → List (Moment Ans ι C S) → Prop
  | start : Carries A K c₀ s₀ c₀ s₀ []
  | call : Carries A K c₀ s₀ c s ms → Step A c (some (t, ev)) c' → K.act t.job s ev s' →
      Carries A K c₀ s₀ c' s' (ms ++ [⟨t.job, ev, s⟩])
  | env : Carries A K c₀ s₀ c s ms → Step A c none c' → Carries A K c₀ s₀ c' s ms

variable {A : Arena Ans W} {K : Carrier Ans ι C S} {c₀ c : Config Ans ι α W} {s₀ s : C → S}
  {ms : List (Moment Ans ι C S)}

theorem Carries.reachable (hr : Carries A K c₀ s₀ c s ms) : Reachable A c₀ c := by
  induction hr with
  | start => exact .start
  | call _ hs _ ih => exact ih.step hs
  | env _ hs ih => exact ih.step hs

theorem Carries.had_moment {prog : ι → Prog Ans α}
    (hr : Carries A K (.start prog w jobs) s₀ c s ms) :
    ∀ t ∈ c.threads, ∀ ev ∈ t.hist, ∃ s', ⟨t.job, ev, s'⟩ ∈ ms := by
  induction hr with
  | start =>
    intro t ht
    obtain ⟨i, -, rfl⟩ := List.mem_map.mp ht
    nofun
  | @env c s ms c' _ hs ih =>
    intro t ht
    rcases hs.threads ht with ht | ⟨_, _, _, _, -, -, hwho⟩
    · exact ih t ht
    · cases hwho
  | @call c s ms u ev c' s' _ hs _ ih =>
    intro t ht ev' hev
    rcases hs.threads ht with ht | ⟨op, a, next, h, heq, ht, hwho⟩
    · obtain ⟨s', hmem⟩ := ih t ht ev' hev
      exact ⟨s', List.mem_append_left _ hmem⟩
    · cases hwho
      rw [heq] at hev
      rcases List.mem_append.mp hev with hev | hev
      · obtain ⟨s', hmem⟩ := ih _ ht ev' hev
        exact ⟨s', List.mem_append_left _ hmem⟩
      · cases List.mem_singleton.mp hev
        exact ⟨s, List.mem_append_right _ (.head _)⟩

inductive Tells (A : Arena Ans W) (K : Carrier Ans ι C S) (i : ι) :
    W → (C → S) → List (Moment Ans ι C S) → W → (C → S) → Prop
  | nil : Tells A K i w v [] w v
  | cons : A.act w ev w' → K.act i v ev v' → Tells A K i w' v' ns w'' v'' →
      Tells A K i w v (⟨i, ev, v⟩ :: ns) w'' v''

theorem Carries.goOn {p q : Prog Ans α} (hp : Tells A K i w s ms w' s')
    (hs : Steps p (ms.map Moment.ev) q) (hr : Carries A K c₀ s₀ ⟨w, [⟨i, h, p⟩]⟩ s ns) :
    Carries A K c₀ s₀ ⟨w', [⟨i, h ++ ms.map Moment.ev, q⟩]⟩ s' (ns ++ ms) := by
  induction hp generalizing h p ns with
  | nil =>
    cases hs
    simpa using hr
  | cons hact hk _ ih =>
    cases hs with
    | call a hs =>
      have := ih hs (hr.call (.call (t := []) (u := []) hact) hk)
      simpa using this

theorem Carries.alone {prog : ι → Prog Ans α} (hs : Steps (prog i) (ms.map Moment.ev) q)
    (hp : Tells A K i w s ms w' s') :
    Carries A K (.start prog w [i]) s ⟨w', [⟨i, ms.map Moment.ev, q⟩]⟩ s' ms :=
  Carries.goOn hp hs .start

variable [DecidableEq C] {mv : Event Ans → Move C} {idle : W → Multiset C}

/-- A borrower accesses only things that it holds. -/
structure Minds (mv : Event Ans → Move C) (reaches : Op → C → Prop) (h : List (Event Ans))
    (op : Op) : Prop where
  gives : GivesHeld mv h op
  reaches : ∀ x, reaches op x → x ∈ held mv h

/-- What a borrower knows of a thing that it holds, by its own history: it holds when the thing
is taken and is preserved by the borrower's own operations. -/
structure Knowledge (mv : Event Ans → Move C) (K : Carrier Ans ι C S)
    (guar : List (Event Ans) → Op → Prop) (I : ι → List (Event Ans) → C → S → Prop) : Prop where
  minds : guar h op → Minds mv K.reaches h op
  taken : mv ev = .take x → I i (h ++ [ev]) x v
  kept : ∀ {s s'}, guar h ev.op → K.act i s ev s' → I i h x (s x) → I i (h ++ [ev]) x (s' x)

theorem held_of_not_take {ev : Event Ans} (hle : givenBack mv h ≤ taken mv h)
    (hgives : ∀ y, mv ev = .give y → y ∈ held mv h) (hm : mv ev ≠ .take x)
    (hx : x ∈ held mv (h ++ [ev])) : x ∈ held mv h := by
  cases hev : mv ev with
  | stay => rwa [held_stay hev] at hx
  | give y =>
    rw [held_give (hgives y hev) hev]
    exact Multiset.mem_cons_of_mem hx
  | take y =>
    rw [held_take hle hev] at hx
    rcases Multiset.mem_cons.mp hx with rfl | hx
    · exact absurd hev hm
    · exact hx

variable {guar : List (Event Ans) → Op → Prop} {prog : ι → Prog Ans α}
  {Q : ι → List (Event Ans) → Exit α → Prop} {I : ι → List (Event Ans) → C → S → Prop}

theorem Knowledge.holds (N : Knowledge mv K guar I) (L : Keeper A mv idle)
    (hb : ∀ i, Spec ⟨fun _ => True, guar⟩ [] (prog i) (Q i)) (hn : (idle w).Nodup)
    (hr : Carries A K (.start prog w jobs) s₀ c s ms) :
    ∀ t ∈ c.threads, ∀ x ∈ held mv t.hist, I t.job t.hist x (s x) := by
  have hborrows : ∀ i, Spec (borrower (fun _ => True) mv) [] (prog i) (Q i) := fun i =>
    (hb i).guar_mono fun _ _ hg => (N.minds hg).gives
  induction hr with
  | start =>
    intro t ht x hx
    obtain ⟨i, -, rfl⟩ := List.mem_map.mp ht
    simp [Thread.start] at hx
  | env hr hs ih =>
    cases hs
    exact ih
  | @call c s ms _ _ _ s' hr hs hact ih =>
    have hall : (allHeld mv c.threads).Nodup :=
      (Multiset.nodup_add.mp (Multiset.nodup_of_le (L.bounded hborrows hr.reachable) hn)).2.1
    have hguar := hr.reachable.asks hb hs fun _ _ => trivial
    have hsteps := hr.reachable.steps
    cases hs with
    | @call op w a w' ts us i h next _ =>
      have hminds := N.minds hguar
      intro t ht x hx
      by_cases hother : t ∈ ts ++ us
      · -- what another holds is out of reach
        have hnot : ¬ K.reaches op x := fun hreach =>
          Multiset.disjoint_left.mp (allHeld_apart_from hall hother) (hminds.reaches x hreach) hx
        rw [K.frame hact hnot]
        exact ih t (by grind) x hx
      · obtain rfl : t = ⟨i, h ++ [⟨op, a⟩], next a⟩ := by grind
        by_cases hm : mv ⟨op, a⟩ = .take x
        · exact N.taken hm
        · have hmover : ⟨i, h, .call op next⟩ ∈ ts ++ ⟨i, h, .call op next⟩ :: us := by simp
          have hle := Spec.givenBack_le (hborrows i) (hsteps _ hmover) fun _ _ => trivial
          have hx' := held_of_not_take hle (hminds.gives a) hm hx
          exact N.kept hguar hact (ih _ hmover x hx')

/-- At every moment the operation was allowed, and the job knew the state of what it held. -/
theorem Knowledge.at_moment (N : Knowledge mv K guar I) (L : Keeper A mv idle)
    (hb : ∀ i, Spec ⟨fun _ => True, guar⟩ [] (prog i) (Q i)) (hn : (idle w).Nodup)
    (hr : Carries A K (.start prog w jobs) s₀ c s ms) :
    ∀ m ∈ ms, ∃ h s', guar h m.ev.op ∧ K.act m.job m.carried m.ev s' ∧
      ∀ x ∈ held mv h, I m.job h x (m.carried x) := by
  induction hr with
  | start => nofun
  | env _ _ ih => exact ih
  | @call _ _ _ t ev _ s' hr hs hact ih =>
    intro m hm
    rcases List.mem_append.mp hm with hm | hm
    · exact ih m hm
    · cases List.mem_singleton.mp hm
      have hguar := hr.reachable.asks hb hs fun _ _ => trivial
      exact ⟨t.hist, s', hguar, hact, N.holds L hb hn hr t hs.mover_mem⟩

end Interact
