import BoostPractice.GuardedRunProofs

/-! # Threads and a lock that must not be taken twice

    A mutex that is not recursive may only be acquired by a thread that does
    not hold it.  What threads do about the mutex is all there is here: an
    `Activity` is a function that a thread is in, and its `Place` says whether
    the function is outside of the lock, at the statement that acquires it, or
    holds it.  A thread begins an activity only when its others are finished.

    `Disciplined.step` is the invariant of such threads, and `no_relock` that
    none of them tries to acquire what it holds. -/

namespace Mutex

open GuardedRun

inductive Place where
  | outside
  | trying
  | holding
  | finished
  deriving DecidableEq

structure Activity (T : Type) where
  thread : T
  place : Place
  deriving DecidableEq

/-- Who holds the mutex, and every activity that was begun. -/
structure Locks (T : Type) where
  owner : Option T
  activities : List (Activity T)

variable {T : Type}

/-- A thread with nothing left to do. -/
def Locks.Idle (s : Locks T) (t : T) : Prop :=
  ∀ a ∈ s.activities, a.thread = t → a.place = .finished

/-- What threads do. -/
inductive Step : Locks T → Locks T → Prop where
  | begin {s : Locks T} {t : T} {p : Place} (idle : s.Idle t) (entered : p ≠ .holding) :
      Step s ⟨s.owner, s.activities ++ [⟨t, p⟩]⟩
  | move {s : Locks T} {k : Nat} {a : Activity T} {p : Place} (at_ : s.activities[k]? = some a)
      (outside : a.place = .outside) (entered : p ≠ .holding) :
      Step s ⟨s.owner, s.activities.set k ⟨a.thread, p⟩⟩
  | acquire {s : Locks T} {k : Nat} {a : Activity T} (at_ : s.activities[k]? = some a)
      (trying : a.place = .trying) (free : s.owner = none) :
      Step s ⟨some a.thread, s.activities.set k ⟨a.thread, .holding⟩⟩
  | release {s : Locks T} {k : Nat} {a : Activity T} {p : Place} (at_ : s.activities[k]? = some a)
      (holding : a.place = .holding) (left : p ≠ .holding) :
      Step s ⟨none, s.activities.set k ⟨a.thread, p⟩⟩

/-- **DISCIPLINE**: the owner of the mutex is the thread of the one activity
    that holds it, and a thread is in one activity at a time. -/
structure Disciplined (s : Locks T) : Prop where
  owned : ∀ t, s.owner = some t → ∃ a ∈ s.activities, a.thread = t ∧ a.place = .holding
  holds : ∀ a ∈ s.activities, a.place = .holding → s.owner = some a.thread
  single : ∀ (j k : Nat) (a b : Activity T), s.activities[j]? = some a → s.activities[k]? = some b →
    a.thread = b.thread → a.place ≠ .finished → b.place ≠ .finished → j = k

theorem disciplined_nil : Disciplined (⟨none, []⟩ : Locks T) where
  owned := nofun
  holds := nofun
  single := nofun

/-- **NO RELOCK**: no thread is about to acquire what it holds. -/
theorem Disciplined.no_relock {s : Locks T} (h : Disciplined s) {a : Activity T}
    (hmem : a ∈ s.activities) (htrying : a.place = .trying) : s.owner ≠ some a.thread := by
  intro howner
  -- the activity that holds it would be this one
  obtain ⟨b, hb, hthread, hholding⟩ := h.owned _ howner
  obtain ⟨j, hj⟩ := List.mem_iff_getElem?.mp hmem
  obtain ⟨k, hk⟩ := List.mem_iff_getElem?.mp hb
  obtain rfl := h.single j k a b hj hk hthread.symm (by rw [htrying]; decide)
    (by rw [hholding]; decide)
  obtain rfl := Option.some.inj (hj.symm.trans hk)
  cases htrying.symm.trans hholding

/-! ## Every step keeps it -/

section Step

variable {s : Locks T}

/-- An activity that goes on is still the only one of its thread. -/
theorem Disciplined.single_set (h : Disciplined s) {i : Nat} {c : Activity T}
    (hc : s.activities[i]? = some c) (hc' : c.place ≠ .finished) (p : Place) :
    ∀ (j k : Nat) (a b : Activity T), (s.activities.set i ⟨c.thread, p⟩)[j]? = some a →
      (s.activities.set i ⟨c.thread, p⟩)[k]? = some b →
      a.thread = b.thread → a.place ≠ .finished → b.place ≠ .finished → j = k := by
  intro j k a b ha hb hthread ha' hb'
  rcases getElem?_of_set ha with ⟨rfl, rfl⟩ | ⟨-, ha⟩
  · rcases getElem?_of_set hb with ⟨rfl, rfl⟩ | ⟨-, hb⟩
    · rfl
    · exact h.single i k c b hc hb hthread hc' hb'
  · rcases getElem?_of_set hb with ⟨rfl, rfl⟩ | ⟨-, hb⟩
    · exact h.single j i a c ha hc hthread ha' hc'
    · exact h.single j k a b ha hb hthread ha' hb'

/-- An activity of the list after one of them has gone on. -/
theorem mem_set_cases {i : Nat} {c' a : Activity T} (h : a ∈ s.activities.set i c') :
    a = c' ∨ ∃ j, j ≠ i ∧ s.activities[j]? = some a := by
  obtain ⟨j, hj⟩ := List.mem_iff_getElem?.mp h
  rcases getElem?_of_set hj with ⟨-, rfl⟩ | ⟨hne, hj⟩
  · exact .inl rfl
  · exact .inr ⟨j, Ne.symm hne, hj⟩

theorem Disciplined.begin (h : Disciplined s) {t : T} {p : Place} (idle : s.Idle t)
    (entered : p ≠ .holding) : Disciplined ⟨s.owner, s.activities ++ [⟨t, p⟩]⟩ where
  owned := by
    intro t' ht'
    obtain ⟨a, ha, hholds⟩ := h.owned t' ht'
    exact ⟨a, List.mem_append_left _ ha, hholds⟩
  holds := by
    intro a ha hholding
    rcases List.mem_append.mp ha with hmem | hnew
    · exact h.holds a hmem hholding
    · rw [List.mem_singleton.mp hnew] at hholding
      exact absurd hholding entered
  single := by
    -- the others of the thread are finished
    have hidle : ∀ (j : Nat) (a : Activity T),
        s.activities[j]? = some a → a.thread = t → a.place ≠ .finished → False :=
      fun _ _ ha hthread hne => hne (idle _ (List.mem_of_getElem? ha) hthread)
    intro j k a b ha hb hthread ha' hb'
    rcases getElem?_concat_iff.mp ha with ha | ⟨rfl, rfl⟩
    · rcases getElem?_concat_iff.mp hb with hb | ⟨-, rfl⟩
      · exact h.single j k a b ha hb hthread ha' hb'
      · exact (hidle j a ha hthread ha').elim
    · rcases getElem?_concat_iff.mp hb with hb | ⟨rfl, -⟩
      · exact (hidle k b hb hthread.symm hb').elim
      · rfl

theorem Disciplined.move (h : Disciplined s) {i : Nat} {c : Activity T} {p : Place}
    (hc : s.activities[i]? = some c) (outside : c.place = .outside) (entered : p ≠ .holding) :
    Disciplined ⟨s.owner, s.activities.set i ⟨c.thread, p⟩⟩ where
  owned := by
    intro t ht
    obtain ⟨a, ha, hthread, hholding⟩ := h.owned t ht
    obtain ⟨j, hj⟩ := List.mem_iff_getElem?.mp ha
    rcases getElem?_set_cases hc hj ⟨c.thread, p⟩ with ⟨-, rfl, -⟩ | ⟨-, hj'⟩
    · cases outside.symm.trans hholding
    · exact ⟨a, List.mem_of_getElem? hj', hthread, hholding⟩
  holds := by
    intro a ha hholding
    rcases mem_set_cases ha with rfl | ⟨j, -, hj⟩
    · exact absurd hholding entered
    · exact h.holds a (List.mem_of_getElem? hj) hholding
  single := h.single_set hc (by rw [outside]; decide) p

theorem Disciplined.acquire (h : Disciplined s) {i : Nat} {c : Activity T}
    (hc : s.activities[i]? = some c) (trying : c.place = .trying) (free : s.owner = none) :
    Disciplined ⟨some c.thread, s.activities.set i ⟨c.thread, .holding⟩⟩ where
  owned := by
    intro t ht
    obtain rfl := Option.some.inj ht
    exact ⟨_, List.mem_set (List.getElem?_eq_some_iff.mp hc).1 _, rfl, rfl⟩
  holds := by
    intro a ha hholding
    rcases mem_set_cases ha with rfl | ⟨j, -, hj⟩
    · rfl
    · cases free.symm.trans (h.holds a (List.mem_of_getElem? hj) hholding)
  single := h.single_set hc (by rw [trying]; decide) _

theorem Disciplined.release (h : Disciplined s) {i : Nat} {c : Activity T} {p : Place}
    (hc : s.activities[i]? = some c) (holding : c.place = .holding) (left : p ≠ .holding) :
    Disciplined ⟨none, s.activities.set i ⟨c.thread, p⟩⟩ where
  owned := nofun
  holds := by
    intro a ha hholding
    rcases mem_set_cases ha with rfl | ⟨j, hne, hj⟩
    · exact absurd hholding left
    · -- two activities that hold the mutex are one
      have howner := h.holds a (List.mem_of_getElem? hj) hholding
      have hthread := Option.some.inj
        (howner.symm.trans (h.holds c (List.mem_of_getElem? hc) holding))
      exact absurd (h.single j i a c hj hc hthread (by rw [hholding]; decide)
        (by rw [holding]; decide)) hne
  single := h.single_set hc (by rw [holding]; decide) p

/-- **EVERY STEP** keeps the discipline. -/
theorem Disciplined.step (h : Disciplined s) {s' : Locks T} (hstep : Step s s') :
    Disciplined s' := by
  cases hstep with
  | begin idle entered => exact h.begin idle entered
  | move at_ outside entered => exact h.move at_ outside entered
  | acquire at_ trying free => exact h.acquire at_ trying free
  | release at_ holding left => exact h.release at_ holding left

end Step

end Mutex
