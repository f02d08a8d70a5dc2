import Mathlib.Data.List.Infix

/-! # Paths, component by component

    A path is a string over any alphabet with a separator and a dot.  Its
    COMPONENTS are what stands between separators, without the empty ones and
    the single dots; `resolve` follows them one by one, two dots going back
    one component, without asking a file system what they are.

    What comes behind a separator adds its components at the end, so that a
    path cannot leave the directory it starts from unless one of them is two
    dots. -/

namespace LexicalPath

variable {α : Type} [DecidableEq α] (sep dot : α)

/-- The components of a path that name something. -/
def components (path : List α) : List (List α) :=
  (path.splitOn sep).filter fun c => c ≠ [] ∧ c ≠ [dot]

/-- Follow one component from a directory. -/
def enter (here : List (List α)) (c : List α) : List (List α) :=
  if c = [dot, dot] then here.dropLast else here ++ [c]

/-- Where a path leads, as components. -/
def resolve (path : List α) : List (List α) := (components sep dot path).foldl (enter dot) []

theorem components_append (p q : List α) :
    components sep dot (p ++ sep :: q) = components sep dot p ++ components sep dot q := by
  rw [components, List.splitOn_append_cons_of_beq p q (beq_self_eq_true sep), List.filter_append]
  rfl

theorem components_nil : components sep dot [] = [] := rfl

/-- A separator at the end does not matter. -/
theorem components_concat (p : List α) :
    components sep dot (p ++ [sep]) = components sep dot p := by
  rw [components_append, components_nil, List.append_nil]

theorem resolve_concat (p : List α) : resolve sep dot (p ++ [sep]) = resolve sep dot p := by
  rw [resolve, components_concat, resolve]

/-- What stands between separators stands in the path, the first of it at the
    front. -/
theorem infix_of_mem_splitOn {c : List α} :
    ∀ {path : List α}, c ∈ path.splitOn sep → c <:+: path := by
  intro path
  suffices h : (∀ c ∈ path.splitOn sep, c <:+: path) ∧
      ∀ c ∈ (path.splitOn sep).head?, c <+: path from fun hc => h.1 c hc
  induction path with
  | nil =>
      rw [List.splitOn_nil]
      refine ⟨fun c hc => ?_, fun c hc => ?_⟩
      · rw [List.mem_singleton.mp hc]
      · rw [← Option.some.inj hc]
  | cons x xs ih =>
      obtain ⟨hall, hhead⟩ := ih
      rw [List.splitOn_cons_eq_if_modifyHead]
      split
      · refine ⟨fun c hc => ?_, fun c hc => ?_⟩
        · rcases List.mem_cons.mp hc with rfl | hmem
          · exact List.nil_infix
          · exact List.infix_cons (hall c hmem)
        · rw [← Option.some.inj hc]
          exact List.nil_prefix
      · cases hxs : xs.splitOn sep with
        | nil => exact absurd hxs (List.splitOn_ne_nil sep xs)
        | cons d ds =>
            rw [hxs] at hall hhead
            -- the first component grows at its front, and stays one of the path
            have hd : x :: d <+: x :: xs :=
              (List.prefix_cons_inj x).mpr (hhead d rfl)
            refine ⟨fun c hc => ?_, fun c hc => ?_⟩
            · rcases List.mem_cons.mp hc with rfl | hmem
              · exact hd.isInfix
              · exact List.infix_cons (hall c (List.mem_cons_of_mem _ hmem))
            · rw [← Option.some.inj hc]
              exact hd

/-- Two dots are a component only where two dots stand in the path. -/
theorem dots_notMem_components {path : List α} (h : ¬ [dot, dot] <:+: path) :
    [dot, dot] ∉ components sep dot path :=
  fun hmem => h (infix_of_mem_splitOn sep (List.mem_filter.mp hmem).1)

/-- Without two dots, following components adds them. -/
theorem foldl_enter {cs : List (List α)} (h : [dot, dot] ∉ cs) (start : List (List α)) :
    cs.foldl (enter dot) start = start ++ cs := by
  induction cs generalizing start with
  | nil => exact (List.append_nil _).symm
  | cons c cs ih =>
      have hc : c ≠ [dot, dot] := fun heq => h (heq ▸ List.mem_cons_self)
      rw [List.foldl_cons, enter, if_neg hc, ih fun hmem => h (List.mem_cons_of_mem _ hmem),
        List.append_assoc, List.singleton_append]

/-- **CONFINED**: behind a separator, components without two dots lead further
    down. -/
theorem resolve_append (p : List α) {q : List α} (h : [dot, dot] ∉ components sep dot q) :
    resolve sep dot (p ++ sep :: q) = resolve sep dot p ++ components sep dot q := by
  rw [resolve, components_append, List.foldl_append, foldl_enter dot h, resolve]

end LexicalPath
