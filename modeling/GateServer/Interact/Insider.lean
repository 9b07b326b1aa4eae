import GateServer.Interact.Refinement

/-!
# The thread inside a mutex

At most one thread is inside a single mutex. The abstract state may anticipate what that
thread is about to do, so that an operation takes effect before its steps are done.
-/

namespace Interact.Machine

variable {S L Cv : Type} [DecidableEq Cv] {M : Machine S L Cv} {locked : S → Bool}
  {inside : L → Bool} {c c' : Monitor S L}

def insider (inside : L → Bool) (c : Monitor S L) : Option L := c.threads.find? inside

abbrev Guarded (M : Machine S L Cv) (locked : S → Bool) (inside : L → Bool) : Prop :=
  M.Lock (K := Unit) (fun s _ => locked s) fun l _ => inside l

abbrev OneInside (locked : S → Bool) (inside : L → Bool) (c : Monitor S L) : Prop :=
  Excludes (K := Unit) (fun s _ => locked s) (fun l _ => inside l) c

omit [DecidableEq Cv] in
theorem insider_eq (hx : OneInside locked inside c) (hl : l ∈ c.threads) (hin : inside l = true) :
    insider inside c = some l := by
  obtain ⟨ts, us, hts⟩ := List.append_of_mem hl
  cases h : insider inside c with
  | none => exact absurd hin (List.find?_eq_none.mp h l hl)
  | some u =>
    have hu : u ∈ c.threads := List.mem_of_find?_eq_some h
    rw [hx.only (k := ()) hts hin hu (List.find?_some h)]

omit [DecidableEq Cv] in
theorem insider_none (hx : OneInside locked inside c) (hfree : locked c.shared = false) :
    insider inside c = none := by
  refine List.find?_eq_none.mpr fun l hl hin => ?_
  cases hfree.symm.trans (hx.flag (k := ()) hl hin)

theorem Lock.insider_enter (lock : M.Guarded locked inside) (hx : OneInside locked inside c)
    (hs : M.Step c l l' c') (hout : inside l = false) (hin : inside l' = true) :
    insider inside c = none := by
  obtain ⟨ts, us, sig, -, hn, -⟩ := hs.inv
  have hbalance := lock.balance hn () fun h => nomatch hout.symm.trans h
  have hle : (locked c'.shared).toNat ≤ 1 := Bool.toNat_le _
  simp only [hout, hin, Bool.toNat_false, Bool.toNat_true] at hbalance
  refine insider_none hx ?_
  cases h : locked c.shared with
  | false => rfl
  | true =>
    rw [h, Bool.toNat_true] at hbalance
    omega

theorem Lock.insider_leave (lock : M.Guarded locked inside) (hx : OneInside locked inside c)
    (hs : M.Step c l l' c') (hin : inside l = true) (hout : inside l' = false) :
    insider inside c' = none := by
  have hx' : OneInside locked inside c' := lock.step hs hx
  obtain ⟨ts, us, sig, -, hn, -⟩ := hs.inv
  have hbalance := lock.balance hn () fun h => hx.flag (k := ()) hs.mover h
  have hle : (locked c.shared).toNat ≤ 1 := Bool.toNat_le _
  simp only [hout, hin, Bool.toNat_false, Bool.toNat_true] at hbalance
  refine insider_none hx' ?_
  cases h : locked c'.shared with
  | false => rfl
  | true =>
    rw [h, Bool.toNat_true] at hbalance
    omega

theorem insider_move (hwaits : ∀ l, inside l = true → M.parked l = none)
    (hx' : OneInside locked inside c') (hs : M.Step c l l' c') (hin : inside l' = true) :
    insider inside c' = some l' :=
  insider_eq hx' (hs.arrives (hwaits l' hin)) hin

theorem Lock.insider_other (lock : M.Guarded locked inside)
    (hwaits : ∀ l, inside l = true → M.parked l = none) (hx : OneInside locked inside c)
    (hs : M.Step c l l' c') (hl : inside l = false) (hl' : inside l' = false) :
    insider inside c' = insider inside c := by
  have hx' : OneInside locked inside c' := lock.step hs hx
  cases h : insider inside c with
  | some u =>
    have hu : inside u = true := List.find?_some h
    have hne : u ≠ l := by
      rintro rfl
      cases hl.symm.trans hu
    exact insider_eq hx' (hs.stays (List.mem_of_find?_eq_some h) hne (hwaits u hu)) hu
  | none =>
    have hnone : c.threads.countP inside = 0 := List.countP_eq_zero.mpr (List.find?_eq_none.mp h)
    have hnone' : c'.threads.countP inside = 0 :=
      hs.countP_zero (fun u hpark hu => (congrFun (lock.woken hpark) ()).symm.trans hu) hnone hl'
    exact List.find?_eq_none.mpr (List.countP_eq_zero.mp hnone')

-- ---------------------------------------------------------------------------
-- Shown by who is inside
-- ---------------------------------------------------------------------------

variable {Op : Type} {Ans : Op → Type} {W : Type} {A : Arena Ans W}
  {effect : S → L → L → Effect Ans} {Ok : Monitor S L → L → L → Prop} {c₀ : Monitor S L}
  {shown : Option L → S → W}

/-- The abstract state as `shown` from the thread inside; the effect of each step takes it to
the one after the step. -/
structure Shows (M : Machine S L Cv) (A : Arena Ans W) (effect : S → L → L → Effect Ans)
    (inside : L → Bool) (P : S → L → Prop) (shown : Option L → S → W) : Prop where
  stays : P s l → M.next s l sig s' l' → inside l = true → inside l' = true →
    A.Makes (effect s l l') (shown (some l) s) (shown (some l') s')
  leaves : P s l → M.next s l sig s' l' → inside l = true → inside l' = false →
    A.Makes (effect s l l') (shown (some l) s) (shown none s')
  enters : P s l → M.next s l sig s' l' → inside l = false → inside l' = true →
    A.Makes (effect s l l') (shown none s) (shown (some l') s')
  passes : P s l → M.next s l sig s' l' → inside l = false → inside l' = false →
    ∀ who, A.Makes (effect s l l') (shown who s) (shown who s')

theorem Lock.refines {P : S → L → Prop} (lock : M.Guarded locked inside)
    (hwaits : ∀ l, inside l = true → M.parked l = none) (h0 : OneInside locked inside c₀)
    (hp : ∀ c, M.Reachable Ok c₀ c → ∀ l ∈ c.threads, P c.shared l)
    (shows : M.Shows A effect inside P shown) :
    M.Refines A Ok effect (fun c => shown (insider inside c) c.shared) c₀ where
  step {c l l' c'} hr hs := by
    have hx := lock.excludes h0 hr
    have hx' : OneInside locked inside c' := lock.step hs hx
    have hpl := hp c hr l hs.mover
    obtain ⟨ts, us, sig, hts, hn, -⟩ := hs.inv
    cases hin : inside l with
    | true =>
      rw [insider_eq hx hs.mover hin]
      cases hin' : inside l' with
      | true =>
        rw [insider_move hwaits hx' hs hin']
        exact shows.stays hpl hn hin hin'
      | false =>
        rw [lock.insider_leave hx hs hin hin']
        exact shows.leaves hpl hn hin hin'
    | false =>
      cases hin' : inside l' with
      | true =>
        rw [lock.insider_enter hx hs hin hin', insider_move hwaits hx' hs hin']
        exact shows.enters hpl hn hin hin'
      | false =>
        rw [lock.insider_other hwaits hx hs hin hin']
        exact shows.passes hpl hn hin hin' _

end Interact.Machine
