import Mathlib.Algebra.GroupWithZero.Nat
import Mathlib.Data.List.Basic

/-! # Runs of a system whose environment keeps to a rule

    A system is a step function over actions: `step s a` is the state after
    action `a`, if `a` can happen in `s` at all.  Which actions happen is up
    to the environment (a scheduler, a peer, a kernel); what is assumed of it
    is a relation `C` between the state and the action about to happen.
    `Reaches step C s₀ s` says that some run from `s₀`, all of whose steps
    meet `C`, ends in `s`.

    Invariants are proved by `Reaches.invariant`, one step at a time, and
    concrete runs are exhibited by evaluating `guardedRun`.

    A system that keeps one record for each thing it has begun names it by
    its position; `getElem?_concat_iff` says what beginning another does, and
    `getElem?_set_cases` what going on with one does. -/

namespace GuardedRun

variable {S A : Type}

/-- The states of the runs whose steps meet `C`. -/
inductive Reaches (step : S → A → Option S) (C : S → A → Prop) (s₀ : S) : S → Prop where
  | start : Reaches step C s₀ s₀
  | next {s s' : S} {a : A} (run : Reaches step C s₀ s) (rule : C s a)
      (taken : step s a = some s') : Reaches step C s₀ s'

variable {step : S → A → Option S} {C D : S → A → Prop} {s₀ s : S}

/-- **INVARIANCE**: what holds at the start and is kept by every step that
    meets the rule holds all along the run. -/
theorem Reaches.invariant {I : S → Prop} (start : I s₀)
    (next : ∀ s a s', I s → C s a → step s a = some s' → I s')
    (h : Reaches step C s₀ s) : I s := by
  induction h with
  | start => exact start
  | next _ rule taken ih => exact next _ _ _ ih rule taken

/-- Invariance, over an invariant that is already known. -/
theorem Reaches.invariant_over {I J : S → Prop}
    (known : ∀ s, Reaches step C s₀ s → J s) (start : I s₀)
    (next : ∀ s a s', J s → I s → C s a → step s a = some s' → I s')
    (h : Reaches step C s₀ s) : I s := by
  induction h with
  | start => exact start
  | next run rule taken ih => exact next _ _ _ (known _ run) ih rule taken

/-- A stricter rule leaves fewer runs. -/
theorem Reaches.mono (hCD : ∀ s a, C s a → D s a) (h : Reaches step C s₀ s) :
    Reaches step D s₀ s := by
  induction h with
  | start => exact .start
  | next _ rule taken ih => exact ih.next (hCD _ _ rule) taken

/-- One run after the other is a run. -/
theorem Reaches.append {s' : S} (h : Reaches step C s₀ s) (h' : Reaches step C s s') :
    Reaches step C s₀ s' := by
  induction h' with
  | start => exact h
  | next _ rule taken ih => exact ih.next rule taken

/-- **PARTS OF A SYSTEM**: what a part goes through is a run of that part alone,
    where a step leaves each part as it is, begins it or is a step of it. -/
theorem Reaches.part {T B : Type} {partStep : T → B → Option T} {t₀ t : T}
    (part : S → Nat → Option T) (start : ∀ k, part s₀ k = none)
    (next : ∀ s a s' k t', step s a = some s' → part s' k = some t' →
      part s k = some t' ∨ t' = t₀ ∨ ∃ t b, part s k = some t ∧ partStep t b = some t')
    (h : Reaches step C s₀ s) {k : Nat} (ht : part s k = some t) :
    Reaches partStep (fun _ _ => True) t₀ t := by
  induction h generalizing t with
  | start => cases (start k).symm.trans ht
  | next _ _ taken ih =>
      rcases next _ _ _ k t taken ht with hsame | rfl | ⟨t₁, b, hold, hstep⟩
      · exact ih hsame
      · exact .start
      · exact (ih hold).next trivial hstep

/-- The state after a list of actions, if each of them can happen and meets
    the rule. -/
def guardedRun (step : S → A → Option S) (C : S → A → Prop) [∀ s a, Decidable (C s a)]
    (s : S) : List A → Option S
  | [] => some s
  | a :: as =>
      if C s a then
        match step s a with
        | some s' => guardedRun step C s' as
        | none => none
      else none

theorem reaches_of_guardedRun_from [∀ s a, Decidable (C s a)] {s' : S} :
    ∀ (as : List A) (s : S), Reaches step C s₀ s → guardedRun step C s as = some s' →
      Reaches step C s₀ s' := by
  intro as
  induction as with
  | nil =>
      intro s h hrun
      exact Option.some.inj hrun ▸ h
  | cons a as ih =>
      intro s h hrun
      rw [guardedRun] at hrun
      split at hrun
      · next rule =>
          cases htaken : step s a with
          | none =>
              rw [htaken] at hrun
              exact nomatch hrun
          | some s₁ =>
              rw [htaken] at hrun
              exact ih s₁ (h.next rule htaken) hrun
      · exact nomatch hrun

/-- A run that evaluates is a run. -/
theorem reaches_of_guardedRun [∀ s a, Decidable (C s a)] {as : List A}
    (h : guardedRun step C s₀ as = some s) : Reaches step C s₀ s :=
  reaches_of_guardedRun_from as s₀ .start h

/-- What a run ends in is a state that is reached. -/
theorem exists_of_guardedRun [∀ s a, Decidable (C s a)] {R : Type} {f : S → R} {r : R}
    {as : List A} (h : (guardedRun step C s₀ as).map f = some r) :
    ∃ s, Reaches step C s₀ s ∧ f s = r := by
  obtain ⟨s, hs, hend⟩ := Option.map_eq_some_iff.mp h
  exact ⟨s, reaches_of_guardedRun hs, hend⟩

/-! ## Runs that end

    A measure that every step lowers, or raises by what the step costs at
    most, bounds the length of a run. -/

/-- A run is no longer than the measure it starts with and what its actions
    cost, where an invariant is enough to see what a step costs. -/
theorem length_of_guardedRun_over [∀ s a, Decidable (C s a)] {I : S → Prop} {μ : S → Nat}
    {cost : A → Nat} (hstep : ∀ s a s', I s → C s a → step s a = some s' →
      I s' ∧ μ s' + 1 ≤ μ s + cost a) :
    ∀ (as : List A) (s s' : S), I s → guardedRun step C s as = some s' →
      as.length + μ s' ≤ μ s + (as.map cost).sum := by
  intro as
  induction as with
  | nil =>
      intro s s' _ hrun
      rw [Option.some.inj hrun]
      exact Nat.le_of_eq (Nat.add_comm _ _)
  | cons a as ih =>
      intro s s' hI hrun
      rw [guardedRun] at hrun
      split at hrun
      · next rule =>
          cases htaken : step s a with
          | none =>
              rw [htaken] at hrun
              exact nomatch hrun
          | some s₁ =>
              rw [htaken] at hrun
              obtain ⟨hI', hone⟩ := hstep s a s₁ hI rule htaken
              have hrest := ih s₁ s' hI' hrun
              rw [List.map_cons, List.sum_cons, List.length_cons]
              omega
      · exact nomatch hrun

/-- The same, where every state shows what a step costs. -/
theorem length_of_guardedRun [∀ s a, Decidable (C s a)] {μ : S → Nat} {cost : A → Nat}
    (hstep : ∀ s a s', step s a = some s' → μ s' + 1 ≤ μ s + cost a) (as : List A) (s s' : S)
    (hrun : guardedRun step C s as = some s') :
    as.length + μ s' ≤ μ s + (as.map cost).sum :=
  length_of_guardedRun_over (I := fun _ => True)
    (fun s a s' _ _ htaken => ⟨trivial, hstep s a s' htaken⟩) as s s' trivial hrun

/-- The same, where what a run may cost is seen from the state it has come to. -/
theorem length_of_guardedRun_earned [∀ s a, Decidable (C s a)] {I : S → Prop} {μ earned : S → Nat}
    (hstep : ∀ s a s', I s → C s a → step s a = some s' →
      I s' ∧ μ s' + earned s + 1 ≤ μ s + earned s') :
    ∀ (as : List A) (s s' : S), I s → guardedRun step C s as = some s' →
      as.length + μ s' + earned s ≤ μ s + earned s' := by
  intro as
  induction as with
  | nil =>
      intro s s' _ hrun
      rw [Option.some.inj hrun, List.length_nil]
      omega
  | cons a as ih =>
      intro s s' hI hrun
      rw [guardedRun] at hrun
      split at hrun
      · next rule =>
          cases htaken : step s a with
          | none =>
              rw [htaken] at hrun
              cases hrun
          | some s₁ =>
              rw [htaken] at hrun
              obtain ⟨hI', hone⟩ := hstep s a s₁ hI rule htaken
              have hrest := ih s₁ s' hI' hrun
              rw [List.length_cons]
              omega
      · cases hrun

/-- Where every step that meets the rule lowers a measure, some run goes on
    until no such step is left. -/
theorem exists_stuck {μ : S → Nat}
    (hlt : ∀ s a s', C s a → step s a = some s' → μ s' < μ s) (s : S) :
    ∃ s', Reaches step C s s' ∧ ∀ a, C s' a → step s' a = none := by
  induction hn : μ s using Nat.strongRecOn generalizing s with
  | _ n ih =>
      by_cases hstuck : ∀ a, C s a → step s a = none
      · exact ⟨s, .start, hstuck⟩
      · obtain ⟨a, ha⟩ := not_forall.mp hstuck
        obtain ⟨rule, hsome⟩ := Classical.not_imp.mp ha
        obtain ⟨s₁, htaken⟩ := Option.ne_none_iff_exists'.mp hsome
        obtain ⟨s', hrun, hend⟩ := ih (μ s₁) (hn ▸ hlt s a s₁ rule htaken) s₁ rfl
        exact ⟨s', (Reaches.start.next rule htaken).append hrun, hend⟩

/-! ## Runs that are watched

    Beside the state, an observer keeps a note of what has happened: the
    largest value there was, or all that was sent.  Watching changes nothing. -/

section Traced

variable {X : Type} {note : X → S → A → S → X}

/-- A step, and what is noted of it. -/
def traced (step : S → A → Option S) (note : X → S → A → S → X) (s : S × X) (a : A) :
    Option (S × X) :=
  (step s.1 a).map fun s' => (s', note s.2 s.1 a s')

theorem traced_some {x x' : X} {a : A} {s s' : S}
    (h : traced step note (s, x) a = some (s', x')) :
    step s a = some s' ∧ x' = note x s a s' := by
  obtain ⟨s₁, hs₁, heq⟩ := Option.map_eq_some_iff.mp h
  obtain ⟨rfl, rfl⟩ := Prod.mk.inj heq
  exact ⟨hs₁, rfl⟩

/-- What is watched is a run. -/
theorem reaches_of_traced {x₀ x : X}
    (h : Reaches (traced step note) (fun s a => C s.1 a) (s₀, x₀) (s, x)) :
    Reaches step C s₀ s := by
  refine h.invariant (I := fun w => Reaches step C s₀ w.1) .start ?_
  rintro ⟨t, y⟩ a ⟨t', y'⟩ hrun rule hstep
  exact hrun.next rule (traced_some hstep).1

end Traced

/-! ## Calls that return something -/

section Calls

variable {T O : Type}

/-- What a list of calls returns and the state behind them, if none of them
    fails. -/
def outputs (call : S → A → Option (O × S)) (s : S) : List A → Option (List O × S)
  | [] => some ([], s)
  | a :: as =>
      match call s a with
      | some (o, s') => (outputs call s' as).map fun rest => (o :: rest.1, rest.2)
      | none => none

/-- **SIMULATION**: where each call that the specification allows succeeds,
    returns the same and keeps the relation, so does every list of calls. -/
theorem outputs_simulates {call : S → A → Option (O × S)} {spec : T → A → Option (O × T)}
    {R : S → T → Prop}
    (hcall : ∀ s t a o t', R s t → spec t a = some (o, t') →
      ∃ s', call s a = some (o, s') ∧ R s' t') :
    ∀ (as : List A) (s : S) (t : T) (os : List O) (t' : T), R s t →
      outputs spec t as = some (os, t') → ∃ s', outputs call s as = some (os, s') ∧ R s' t' := by
  intro as
  induction as with
  | nil =>
      intro s t os t' hR hrun
      obtain ⟨rfl, rfl⟩ := Prod.mk.inj (Option.some.inj hrun)
      exact ⟨s, rfl, hR⟩
  | cons a as ih =>
      intro s t os t' hR hrun
      rw [outputs] at hrun
      split at hrun
      · next o t₁ hspec =>
          obtain ⟨⟨os₁, t₂⟩, hrest, heq⟩ := Option.map_eq_some_iff.mp hrun
          obtain ⟨rfl, rfl⟩ := Prod.mk.inj heq
          obtain ⟨s₁, hs₁, hR₁⟩ := hcall s t a o t₁ hR hspec
          obtain ⟨s', hs', hR'⟩ := ih s₁ t₁ os₁ t₂ hR₁ hrest
          refine ⟨s', ?_, hR'⟩
          rw [outputs, hs₁]
          show (outputs call s₁ as).map _ = _
          rw [hs']
          rfl
      · exact nomatch hrun

end Calls

/-! ## Records -/

/-- After a record was added, a position has an old record or the new one. -/
theorem getElem?_concat_iff {R : Type} {rs : List R} {r r' : R} {k : Nat} :
    (rs ++ [r])[k]? = some r' ↔ rs[k]? = some r' ∨ k = rs.length ∧ r = r' := by
  constructor
  · intro h
    rw [List.getElem?_append] at h
    split at h
    · exact .inl h
    · next hge =>
        have hlt := (List.getElem?_eq_some_iff.mp h).1
        rw [List.length_singleton] at hlt
        exact .inr ⟨by omega, (List.mem_singleton.mp (List.mem_of_getElem? h)).symm⟩
  · rintro (h | ⟨rfl, rfl⟩)
    · rw [List.getElem?_append_left (List.getElem?_eq_some_iff.mp h).1]
      exact h
    · exact List.getElem?_concat_length

/-- A position without a record had none before. -/
theorem getElem?_of_concat_none {R : Type} {rs : List R} {r : R} {k : Nat}
    (h : (rs ++ [r])[k]? = none) : rs[k]? = none := by
  rw [List.getElem?_eq_none_iff] at h ⊢
  rw [List.length_append] at h
  exact Nat.le_trans (Nat.le_add_right _ _) h

/-- After a record was replaced, a position has the new one or its old one. -/
theorem getElem?_set_cases {R : Type} {rs : List R} {j k : Nat} {old r : R}
    (hold : rs[j]? = some old) (h : rs[k]? = some r) (new : R) :
    j = k ∧ r = old ∧ (rs.set j new)[k]? = some new ∨
      j ≠ k ∧ (rs.set j new)[k]? = some r := by
  by_cases hj : j = k
  · subst hj
    exact .inl ⟨rfl, Option.some.inj (h.symm.trans hold),
      List.getElem?_set_self (List.getElem?_eq_some_iff.mp h).1⟩
  · exact .inr ⟨hj, (List.getElem?_set_ne hj).trans h⟩

/-- A position after a record was replaced has the new one, or is another. -/
theorem getElem?_of_set {R : Type} {rs : List R} {new r : R} {j k : Nat}
    (h : (rs.set j new)[k]? = some r) : j = k ∧ new = r ∨ j ≠ k ∧ rs[k]? = some r := by
  by_cases hj : j = k
  · subst hj
    have hlt : j < rs.length := by
      rw [← rs.length_set (a := new)]
      exact (List.getElem?_eq_some_iff.mp h).1
    rw [List.getElem?_set_self hlt] at h
    exact .inl ⟨rfl, Option.some.inj h⟩
  · rw [List.getElem?_set_ne hj] at h
    exact .inr ⟨hj, h⟩

/-- Replacing a record changes nothing that the new one has from the old. -/
theorem map_set_eq {R V : Type} {rs : List R} {j : Nat} {old new : R} {f : R → V}
    (hold : rs[j]? = some old) (hf : f new = f old) : (rs.set j new).map f = rs.map f := by
  refine List.ext_getElem? fun k => ?_
  rw [List.getElem?_map, List.getElem?_map]
  by_cases hj : j = k
  · subst hj
    rw [List.getElem?_set_self (List.getElem?_eq_some_iff.mp hold).1, hold]
    exact congrArg some hf
  · rw [List.getElem?_set_ne hj]

theorem filterMap_set_eq {R V : Type} {rs : List R} {j : Nat} {old new : R} {f : R → Option V}
    (hold : rs[j]? = some old) (hf : f new = f old) :
    (rs.set j new).filterMap f = rs.filterMap f := by
  have hmap : ∀ l : List R, l.filterMap f = (l.map f).filterMap fun v => v := by
    intro l
    rw [List.filterMap_map]
    rfl
  rw [hmap, hmap, map_set_eq hold hf]

theorem filterMap_concat_none {R V : Type} {rs : List R} {f : R → Option V} {r : R}
    (h : f r = none) : (rs ++ [r]).filterMap f = rs.filterMap f := by
  rw [List.filterMap_append, List.filterMap_cons_none h, List.filterMap_nil, List.append_nil]

/-- Replacing a record exchanges what the old one counts for what the new one
    does. -/
theorem sum_map_set {R : Type} {rs : List R} {j : Nat} {old : R} (hold : rs[j]? = some old)
    (new : R) (f : R → Nat) :
    ((rs.set j new).map f).sum + f old = (rs.map f).sum + f new := by
  induction rs generalizing j with
  | nil => exact nomatch hold
  | cons r rs ih =>
      cases j with
      | zero =>
          obtain rfl : r = old := Option.some.inj hold
          rw [List.set_cons_zero, List.map_cons, List.map_cons, List.sum_cons, List.sum_cons]
          omega
      | succ j =>
          have hrest := ih (j := j) hold
          rw [List.set_cons_succ, List.map_cons, List.map_cons, List.sum_cons, List.sum_cons]
          omega

theorem countP_set_add {R : Type} {rs : List R} {j : Nat} {old : R} (hold : rs[j]? = some old)
    (new : R) (p : R → Bool) :
    (rs.set j new).countP p + (p old).toNat = rs.countP p + (p new).toNat := by
  induction rs generalizing j with
  | nil => exact nomatch hold
  | cons r rs ih =>
      cases j with
      | zero =>
          obtain rfl : r = old := Option.some.inj hold
          rw [List.set_cons_zero, List.countP_cons, List.countP_cons]
          cases p r <;> cases p new <;> simp
      | succ j =>
          have hrest := ih (j := j) hold
          rw [List.set_cons_succ, List.countP_cons, List.countP_cons]
          omega

/-- What only one record may have tells its position. -/
theorem position_unique {R V : Type} {rs : List R} {f : R → Option V}
    (hnodup : (rs.filterMap f).Nodup) {j k : Nat} {r r' : R} {v : V} (hr : rs[j]? = some r)
    (hr' : rs[k]? = some r') (hv : f r = some v) (hv' : f r' = some v) : j = k := by
  have hpairs := List.pairwise_iff_getElem.mp (List.pairwise_filterMap.mp hnodup)
  obtain ⟨hj, hrj⟩ := List.getElem?_eq_some_iff.mp hr
  obtain ⟨hk, hrk⟩ := List.getElem?_eq_some_iff.mp hr'
  rcases Nat.lt_trichotomy j k with hlt | heq | hlt
  · exact absurd rfl (hpairs j k hj hk hlt v (hrj ▸ hv) v (hrk ▸ hv'))
  · exact heq
  · exact absurd rfl (hpairs k j hk hj hlt v (hrk ▸ hv') v (hrj ▸ hv))

/-- Replacing the only record that has something leaves none. -/
theorem filterMap_set_nil {R V : Type} {rs : List R} {f : R → Option V} {v : V}
    (honly : rs.filterMap f = [v]) {j : Nat} {old new : R} (hold : rs[j]? = some old)
    (hv : f old = some v) (hnew : f new = none) : (rs.set j new).filterMap f = [] := by
  rw [List.filterMap_eq_nil_iff]
  intro r hr
  obtain ⟨k, hk⟩ := List.mem_iff_getElem?.mp hr
  rcases getElem?_of_set hk with ⟨-, rfl⟩ | ⟨hne, hk⟩
  · exact hnew
  · cases hfr : f r with
    | none => rfl
    | some v' =>
        have hmem : v' ∈ rs.filterMap f := List.mem_filterMap.mpr ⟨r, List.mem_of_getElem? hk, hfr⟩
        rw [honly, List.mem_singleton] at hmem
        subst hmem
        exact absurd (position_unique (honly ▸ List.pairwise_singleton _ v') hold hk hv hfr) hne

end GuardedRun
