import GateServer.Interact.Interleave
import Mathlib.Algebra.Order.BigOperators.Group.List
import Mathlib.Algebra.Order.Group.Multiset
import Mathlib.Algebra.Order.Sub.Unbundled.Basic
import Mathlib.Data.List.Induction
import Mathlib.Data.Multiset.OrderedMonoid

/-!
# Lending

A world owns a stock of things, which some operations take and others give back. A
borrower gives only what it holds and ends holding nothing; a lender is a world whose
stock changes by exactly what is taken and given. In every interleaving of borrowers, the
stock and what the threads hold are together what there was at the start.
-/

namespace Interact

variable {Op : Type} {Ans : Op → Type} {ι α W C : Type}

inductive Move (C : Type)
  | take (c : C)
  | give (c : C)
  | stay

-- ---------------------------------------------------------------------------
-- Histories
-- ---------------------------------------------------------------------------

section
variable (mv : Event Ans → Move C)

def taken : List (Event Ans) → Multiset C
  | [] => 0
  | ev :: tr =>
    match mv ev with
    | .take c => c ::ₘ taken tr
    | _ => taken tr

def givenBack : List (Event Ans) → Multiset C
  | [] => 0
  | ev :: tr =>
    match mv ev with
    | .give c => c ::ₘ givenBack tr
    | _ => givenBack tr

def held [DecidableEq C] (tr : List (Event Ans)) : Multiset C := taken mv tr - givenBack mv tr

end

variable {mv : Event Ans → Move C}

@[simp] theorem taken_nil : taken mv [] = 0 := rfl
@[simp] theorem givenBack_nil : givenBack mv [] = 0 := rfl
theorem taken_append (tr tr' : List (Event Ans)) :
    taken mv (tr ++ tr') = taken mv tr + taken mv tr' := by
  induction tr with
  | nil => simp
  | cons ev tr ih =>
    simp only [List.cons_append, taken, ih]
    cases mv ev <;> simp

theorem givenBack_append (tr tr' : List (Event Ans)) :
    givenBack mv (tr ++ tr') = givenBack mv tr + givenBack mv tr' := by
  induction tr with
  | nil => simp
  | cons ev tr ih =>
    simp only [List.cons_append, givenBack, ih]
    cases mv ev <;> simp

variable [DecidableEq C]

@[simp] theorem held_nil : held mv [] = 0 := rfl

theorem held_take (hle : givenBack mv h ≤ taken mv h) (hm : mv ev = .take c) :
    held mv (h ++ [ev]) = c ::ₘ held mv h := by
  have ht : taken mv (h ++ [ev]) = c ::ₘ taken mv h := by
    simp [taken_append, taken, hm, add_comm _ {c}]
  have hg : givenBack mv (h ++ [ev]) = givenBack mv h := by simp [givenBack_append, givenBack, hm]
  rw [held, held, ht, hg, Multiset.cons_sub_of_le c hle]

theorem held_give (hc : c ∈ held mv h) (hm : mv ev = .give c) :
    held mv h = c ::ₘ held mv (h ++ [ev]) := by
  have ht : taken mv (h ++ [ev]) = taken mv h := by simp [taken_append, taken, hm]
  have hg : givenBack mv (h ++ [ev]) = givenBack mv h + {c} := by
    simp [givenBack_append, givenBack, hm]
  have hsub : held mv (h ++ [ev]) = (held mv h).erase c := by
    rw [held, held, ht, hg, tsub_add_eq_tsub_tsub, Multiset.sub_singleton]
  rw [hsub, Multiset.cons_erase hc]

theorem held_stay (hm : mv ev = .stay) : held mv (h ++ [ev]) = held mv h := by
  simp [held, taken_append, givenBack_append, taken, givenBack, hm]

theorem mem_held_snoc (hle : givenBack mv h ≤ taken mv h)
    (hg : ∀ c, mv ev = .give c → c ∈ held mv h) (hc : c ∈ held mv (h ++ [ev])) :
    c ∈ held mv h ∨ mv ev = .take c := by
  cases hm : mv ev with
  | take d =>
    rw [held_take hle hm, Multiset.mem_cons] at hc
    exact hc.symm.imp id fun hcd => congrArg Move.take hcd.symm
  | give d =>
    rw [held_give (hg d hm) hm]
    exact .inl (Multiset.mem_cons_of_mem hc)
  | stay => exact .inl (held_stay hm ▸ hc)

-- ---------------------------------------------------------------------------
-- Borrowers
-- ---------------------------------------------------------------------------

/-- After this history the operation gives only what is held. -/
def GivesHeld (mv : Event Ans → Move C) (h : List (Event Ans)) (op : Op) : Prop :=
  ∀ a c, mv ⟨op, a⟩ = .give c → c ∈ held mv h

def borrower (Good : Event Ans → Prop) (mv : Event Ans → Move C) : Protocol Ans where
  rely := Good
  guar := GivesHeld mv

def GaveBack (mv : Event Ans → Move C) (tr : List (Event Ans)) : Prop :=
  givenBack mv tr = taken mv tr

variable {Good : Event Ans → Prop}

/-- A program that gives only what it holds, and holds nothing at its end. -/
def Borrows (Good : Event Ans → Prop) (mv : Event Ans → Move C) (p : Prog Ans α) : Prop :=
  Spec (borrower Good mv) [] p fun tr _ => GaveBack mv tr

theorem givenBack_snoc_le (hle : givenBack mv h ≤ taken mv h) {op : Op} {a : Ans op}
    (hg : ∀ c, mv ⟨op, a⟩ = .give c → c ∈ held mv h) :
    givenBack mv (h ++ [⟨op, a⟩]) ≤ taken mv (h ++ [⟨op, a⟩]) := by
  rw [givenBack_append, taken_append]
  cases hm : mv ⟨op, a⟩ with
  | take c =>
    simpa [givenBack, taken, hm] using hle.trans (Multiset.le_add_right _ _)
  | stay => simpa [givenBack, taken, hm] using hle
  | give c =>
    have hc : {c} ≤ taken mv h - givenBack mv h := Multiset.singleton_le.mpr (hg c hm)
    have := add_le_of_le_tsub_left_of_le hle hc
    simpa [givenBack, taken, hm] using this

theorem Spec.givenBack_le {p q : Prog Ans α} {Q : List (Event Ans) → Exit α → Prop}
    (hb : Spec (borrower Good mv) [] p Q) (hs : Steps p tr q) (hr : ∀ ev ∈ tr, Good ev) :
    givenBack mv tr ≤ taken mv tr := by
  induction tr using List.reverseRecOn generalizing q with
  | nil => simp
  | append_singleton tr ev ih =>
    obtain ⟨op, a⟩ := ev
    have hr' : ∀ ev ∈ tr, Good ev := fun ev hev => hr ev (List.mem_append_left _ hev)
    obtain ⟨q', hq', -⟩ := hs.split
    exact givenBack_snoc_le (ih hq' hr') fun c => Spec.asks hb hs hr' a c

-- ---------------------------------------------------------------------------
-- Borrowers by their whole runs
-- ---------------------------------------------------------------------------

def Idles (mv : Event Ans → Move C) (tr : List (Event Ans)) : Prop :=
  ∀ ev ∈ tr, mv ev = .stay ∧ ∀ a c, mv ⟨ev.op, a⟩ ≠ .give c

/-- A complete run of a borrower: each thing that is given was held, and all of them are given
back. -/
def Settles (mv : Event Ans → Move C) (tr : List (Event Ans)) : Prop :=
  Guarded (GivesHeld mv) [] tr ∧ GaveBack mv tr

theorem Borrows.of_runs {p : Prog Ans α} (hans : ∀ op, ∃ a, Good ⟨op, a⟩)
    (hr : ∀ tr e, Runs p tr e → (∀ ev ∈ tr, Good ev) → Settles mv tr) : Borrows Good mv p :=
  Spec.of_runs hans fun tr e hrun hev => hr tr e hrun hev

omit [DecidableEq C] in
theorem Idles.taken (hi : Idles mv tr) : taken mv tr = 0 := by
  induction tr with
  | nil => rfl
  | cons ev tr ih =>
    have hm := (hi ev (by simp)).1
    simp only [Interact.taken, hm]
    exact ih fun ev hev => hi ev (List.mem_cons_of_mem _ hev)

omit [DecidableEq C] in
theorem Idles.givenBack (hi : Idles mv tr) : givenBack mv tr = 0 := by
  induction tr with
  | nil => rfl
  | cons ev tr ih =>
    have hm := (hi ev (by simp)).1
    simp only [Interact.givenBack, hm]
    exact ih fun ev hev => hi ev (List.mem_cons_of_mem _ hev)

theorem Idles.guarded (hi : Idles mv tr) (h : List (Event Ans)) :
    Guarded (GivesHeld mv) h tr := by
  induction tr generalizing h with
  | nil => trivial
  | cons ev tr ih =>
    refine ⟨fun a c hm => ?_, ih (fun ev hev => hi ev (List.mem_cons_of_mem _ hev)) _⟩
    exact absurd hm ((hi ev (by simp)).2 a c)

theorem Idles.settles (hi : Idles mv tr) : Settles mv tr :=
  ⟨hi.guarded [], hi.givenBack.trans hi.taken.symm⟩

theorem settles_once {op op' : Op} {a : Ans op} {a' : Ans op'} (ht : mv ⟨op, a⟩ = .take c)
    (hn : ∀ a d, mv ⟨op, a⟩ ≠ .give d) (hg : ∀ a, mv ⟨op', a⟩ = .give c) (hi : Idles mv mid)
    (hi' : Idles mv tail) : Settles mv (⟨op, a⟩ :: (mid ++ ⟨op', a'⟩ :: tail)) := by
  have htaken : taken mv (⟨op, a⟩ :: (mid ++ ⟨op', a'⟩ :: tail)) = {c} := by
    simp [taken, ht, taken_append, hi.taken, hg a', hi'.taken]
  have hgiven : givenBack mv (⟨op, a⟩ :: (mid ++ ⟨op', a'⟩ :: tail)) = {c} := by
    simp [givenBack, ht, givenBack_append, hi.givenBack, hg a', hi'.givenBack]
  have hheld : held mv (⟨op, a⟩ :: mid) = {c} := by
    simp [held, taken, givenBack, ht, hi.taken, hi.givenBack]
  refine ⟨⟨fun a d hm => absurd hm (hn a d), ?_⟩, hgiven.trans htaken.symm⟩
  refine guarded_append.mpr ⟨hi.guarded _, fun a d hm => ?_, hi'.guarded _⟩
  cases (hg a).symm.trans hm
  simp [hheld]

def idler (Good : Event Ans → Prop) (mv : Event Ans → Move C) : Protocol Ans where
  rely := Good
  guar _ op := ∀ a, mv ⟨op, a⟩ = .stay

theorem Borrows.of_idler {p : Prog Ans α} {Q : List (Event Ans) → Exit α → Prop}
    (hp : Spec (idler Good mv) [] p Q) : Borrows Good mv p := by
  have hall : ∀ h, Idles mv h → Spec (idler Good mv) h p Q →
      Spec (borrower Good mv) h p fun tr _ => GaveBack mv tr := by
    clear hp
    induction p with
    | done e => exact fun h hi _ => hi.settles.2
    | call op next ih =>
      intro h hi hp
      have hnot : ∀ a c, mv ⟨op, a⟩ ≠ .give c := by
        intro a c hm
        rw [hp.1 a] at hm
        cases hm
      refine ⟨fun a c hm => absurd hm (hnot a c), fun a ha => ih a _ ?_ (hp.2 a ha)⟩
      intro ev hev
      rcases List.mem_append.mp hev with hev | hev
      · exact hi ev hev
      · cases List.mem_singleton.mp hev
        exact ⟨hp.1 a, hnot⟩
  exact hall [] (by simp [Idles]) hp

-- ---------------------------------------------------------------------------
-- Lenders
-- ---------------------------------------------------------------------------

/-- A world whose stock follows the moves until it closes. -/
structure Lender (A : Arena Ans W) (mv : Event Ans → Move C) (idle : W → Multiset C)
    (opened : W → Prop) : Prop where
  take : A.act w ev w' → opened w' → mv ev = .take c → idle w = c ::ₘ idle w'
  give : A.act w ev w' → opened w' → mv ev = .give c → idle w' = c ::ₘ idle w
  stay : A.act w ev w' → opened w' → mv ev = .stay → idle w' = idle w
  env : A.env w w' → opened w' → idle w' = idle w
  opened_act : A.act w ev w' → opened w' → opened w
  opened_env : A.env w w' → opened w' → opened w

def allHeld (mv : Event Ans → Move C) (ts : List (Thread Ans ι α)) : Multiset C :=
  (ts.map fun t => held mv t.hist).sum

theorem allHeld_split (mv : Event Ans → Move C) (ts us : List (Thread Ans ι α))
    (t : Thread Ans ι α) :
    allHeld mv (ts ++ t :: us) = held mv t.hist + allHeld mv (ts ++ us) := by
  simp only [allHeld, List.map_append, List.map_cons, List.sum_append, List.sum_cons]
  ac_rfl

/-- The stock and what is held are together what there was, no two threads hold the same thing,
and a finished thread has given back exactly what it took. -/
structure Conserved (mv : Event Ans → Move C) (stock idle : Multiset C)
    (ts : List (Thread Ans ι α)) : Prop where
  total : idle + allHeld mv ts = stock
  apart : stock.Nodup → ts.Pairwise fun t u => Disjoint (held mv t.hist) (held mv u.hist)
  back : ∀ t ∈ ts, t.Finished → GaveBack mv t.hist

omit [DecidableEq C] in
theorem pairwise_disjoint_of_sum {τ : Type} {f : τ → Multiset C} {ts : List τ}
    (hn : (ts.map f).sum.Nodup) : ts.Pairwise fun t u => Disjoint (f t) (f u) := by
  induction ts with
  | nil => exact .nil
  | cons t ts ih =>
    obtain ⟨-, hn, hd⟩ := Multiset.nodup_add.mp hn
    refine .cons (fun u hu => hd.mono_right ?_) (ih hn)
    exact List.single_le_sum (fun _ _ => Multiset.zero_le _) _ (List.mem_map.mpr ⟨u, hu, rfl⟩)

theorem allHeld_apart {ts : List (Thread Ans ι α)} (hn : (allHeld mv ts).Nodup) :
    ts.Pairwise fun t u => Disjoint (held mv t.hist) (held mv u.hist) :=
  pairwise_disjoint_of_sum hn

theorem allHeld_apart_from {ts us : List (Thread Ans ι α)} {t u : Thread Ans ι α}
    (hn : (allHeld mv (ts ++ t :: us)).Nodup) (hu : u ∈ ts ++ us) :
    Disjoint (held mv t.hist) (held mv u.hist) := by
  rw [allHeld_split] at hn
  obtain ⟨-, -, hd⟩ := Multiset.nodup_add.mp hn
  apply hd.mono_right
  exact List.single_le_sum (fun _ _ => Multiset.zero_le _) _ (List.mem_map.mpr ⟨u, hu, rfl⟩)

variable {A : Arena Ans W} {idle : W → Multiset C} {opened : W → Prop} {prog : ι → Prog Ans α}
  {Fits : ι → Event Ans → Prop}

def AllFit (Fits : ι → Event Ans → Prop) (c : Config Ans ι α W) : Prop :=
  ∀ t ∈ c.threads, ∀ ev ∈ t.hist, Fits t.job ev

theorem Step.allFit (hs : Step A c who c') (hf : AllFit Fits c') : AllFit Fits c := by
  intro t ht ev hev
  obtain ⟨t', ht', hjob, hsub⟩ := hs.hist ht
  exact hjob ▸ hf t' ht' ev (hsub ev hev)

theorem allHeld_start (prog : ι → Prog Ans α) (jobs : List ι) :
    allHeld mv (jobs.map (Thread.start prog)) = 0 := by
  induction jobs with
  | nil => rfl
  | cons i jobs ih => simpa [allHeld, Thread.start] using ih

theorem Lender.total (L : Lender A mv idle opened) (hb : ∀ i, Borrows (Fits i) mv (prog i))
    (hr : Reachable A (.start prog w jobs) c) (hf : AllFit Fits c) (ho : opened c.world) :
    idle c.world + allHeld mv c.threads = idle w := by
  induction hr with
  | start => simp [Config.start, allHeld_start]
  | step hr hs ih =>
    have hf' := hs.allFit hf
    cases hs with
    | env henv =>
      have hopen := L.opened_env henv ho
      exact (congrArg (· + _) (L.env henv ho)).trans (ih hf' hopen)
    | @call op w a w' ts us i h next hact =>
      have hopen := L.opened_act hact ho
      have hsteps := hr.steps ⟨i, h, .call op next⟩ (by simp)
      have hgood : ∀ ev ∈ h, Fits i ev := hf' ⟨i, h, .call op next⟩ (by simp)
      have ih := ih hf' hopen
      simp only [allHeld_split] at ih ⊢
      -- only the mover's hands and the stock have changed, and by the same thing
      cases hm : mv ⟨op, a⟩ with
      | stay => rw [held_stay hm, L.stay hact ho hm, ih]
      | take c =>
        rw [held_take (Spec.givenBack_le (hb i) hsteps hgood) hm, ← ih, L.take hact ho hm]
        simp
      | give c =>
        have hc : c ∈ held mv h := Spec.asks (hb i) (hsteps.snoc a) hgood a c hm
        rw [L.give hact ho hm, ← ih, held_give hc hm]
        simp

/-- Borrowers of a lender lose nothing and share nothing. -/
theorem Lender.conserved (L : Lender A mv idle opened) (hb : ∀ i, Borrows (Fits i) mv (prog i))
    (hr : Reachable A (.start prog w jobs) c) (hf : AllFit Fits c) (ho : opened c.world) :
    Conserved mv (idle w) (idle c.world) c.threads := by
  have htotal := L.total hb hr hf ho
  refine ⟨htotal, fun hn => ?_, ?_⟩
  · rw [← htotal] at hn
    exact allHeld_apart (Multiset.nodup_add.mp hn).2.1
  · rintro t ht ⟨e, he⟩
    have hsteps := hr.steps t ht
    rw [he] at hsteps
    exact Spec.runs (hb t.job) hsteps (hf t ht)

-- ---------------------------------------------------------------------------
-- Suppliers
-- ---------------------------------------------------------------------------

/-- A world that adds new things to its stock and counts them; things may be lost. -/
structure Supplier (A : Arena Ans W) (mv : Event Ans → Move C) (idle supply : W → Multiset C) :
    Prop where
  take : A.act w ev w' → mv ev = .take c → c ::ₘ idle w' ≤ idle w ∧ supply w' = supply w
  give : A.act w ev w' → mv ev = .give c → idle w' ≤ c ::ₘ idle w ∧ supply w' = supply w
  stay : A.act w ev w' → mv ev = .stay →
    ∃ new, idle w' ≤ idle w + new ∧ supply w' = supply w + new
  env : A.env w w' → idle w' ≤ idle w ∧ supply w' = supply w

variable {supply : W → Multiset C} {Q : ι → List (Event Ans) → Exit α → Prop}

theorem Supplier.bounded (S : Supplier A mv idle supply)
    (hgood : ∀ w ev w', A.act w ev w' → Good ev)
    (hb : ∀ i, Spec (borrower Good mv) [] (prog i) (Q i)) (h0 : idle w ≤ supply w)
    (hr : Reachable A (.start prog w jobs) c) :
    idle c.world + allHeld mv c.threads ≤ supply c.world := by
  induction hr with
  | start => simpa [Config.start, allHeld_start] using h0
  | step hr hs ih =>
    cases hs with
    | env henv =>
      rw [(S.env henv).2]
      exact (Multiset.add_le_add_right (S.env henv).1).trans ih
    | @call op w a w' ts us i h next hact =>
      have hsteps := hr.steps ⟨i, h, .call op next⟩ (by simp)
      have hhist := hr.all_answers hgood ⟨i, h, .call op next⟩ (by simp)
      simp only [allHeld_split] at ih ⊢
      cases hm : mv ⟨op, a⟩ with
      | stay =>
        obtain ⟨new, hidle, hsupply⟩ := S.stay hact hm
        rw [held_stay hm, hsupply]
        calc idle w' + (held mv h + allHeld mv (ts ++ us))
            ≤ idle w + new + (held mv h + allHeld mv (ts ++ us)) :=
              Multiset.add_le_add_right hidle
          _ = idle w + (held mv h + allHeld mv (ts ++ us)) + new := add_right_comm ..
          _ ≤ supply w + new := Multiset.add_le_add_right ih
      | take c =>
        obtain ⟨hidle, hsupply⟩ := S.take hact hm
        rw [held_take (Spec.givenBack_le (hb i) hsteps hhist) hm, hsupply]
        refine le_trans ?_ ih
        simpa using Multiset.add_le_add_right hidle
      | give c =>
        obtain ⟨hidle, hsupply⟩ := S.give hact hm
        have hc : c ∈ held mv h := Spec.asks (hb i) (hsteps.snoc a) hhist a c hm
        rw [hsupply]
        refine le_trans ?_ ih
        rw [held_give hc hm]
        simpa using Multiset.add_le_add_right hidle

-- ---------------------------------------------------------------------------
-- Keepers
-- ---------------------------------------------------------------------------

/-- A world whose stock gains only what is given; things may be lost. -/
structure Keeper (A : Arena Ans W) (mv : Event Ans → Move C) (idle : W → Multiset C) : Prop where
  take : A.act w ev w' → mv ev = .take c → c ::ₘ idle w' ≤ idle w
  give : A.act w ev w' → mv ev = .give c → idle w' ≤ c ::ₘ idle w
  stay : A.act w ev w' → mv ev = .stay → idle w' ≤ idle w
  env : A.env w w' → idle w' ≤ idle w

omit [DecidableEq C] in
theorem Keeper.supplier (K : Keeper A mv idle) (stock : Multiset C) :
    Supplier A mv idle fun _ => stock where
  take hact hm := ⟨K.take hact hm, rfl⟩
  give hact hm := ⟨K.give hact hm, rfl⟩
  stay hact hm := ⟨0, by simpa using K.stay hact hm, by simp⟩
  env henv := ⟨K.env henv, rfl⟩

theorem Keeper.bounded (K : Keeper A mv idle)
    (hb : ∀ i, Spec (borrower (fun _ => True) mv) [] (prog i) (Q i))
    (hr : Reachable A (.start prog w jobs) c) :
    idle c.world + allHeld mv c.threads ≤ idle w :=
  (K.supplier (idle w)).bounded (fun _ _ _ _ => trivial) hb le_rfl hr

end Interact
