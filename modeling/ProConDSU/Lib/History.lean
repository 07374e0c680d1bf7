import Mathlib.Data.List.Basic

/-!
# What a history says

The events after the `n`th of a kind, the latest value that a history's events report, and what each
event says where its meaning depends on those before it (`History.readings`).
-/

namespace History

variable {ε β : Type}

/-- The events after the `i`th that satisfies `p`, counting from `0`. -/
def afterNth (p : ε → Bool) : ℕ → List ε → List ε
  | _, [] => []
  | 0, e :: es => if p e then es else afterNth p 0 es
  | i + 1, e :: es => if p e then afterNth p i es else afterNth p (i + 1) es

theorem afterNth_append_of_lt {p : ε → Bool} (fs : List ε) : ∀ (i : ℕ) (es : List ε),
    i < es.countP p → afterNth p i (es ++ fs) = afterNth p i es ++ fs
  | _, [], h => by simp at h
  | 0, e :: es, h => by
    by_cases hp : p e
    · simp [afterNth, hp]
    · have ih := afterNth_append_of_lt fs 0 es (by simpa [List.countP_cons, hp] using h)
      simp [afterNth, hp, ih]
  | i + 1, e :: es, h => by
    by_cases hp : p e
    · have ih := afterNth_append_of_lt fs i es (by simpa [List.countP_cons, hp] using h)
      simp [afterNth, hp, ih]
    · have ih := afterNth_append_of_lt fs (i + 1) es (by simpa [List.countP_cons, hp] using h)
      simp [afterNth, hp, ih]

theorem afterNth_concat_eq_nil {p : ε → Bool} {e : ε} (he : p e) : ∀ (es : List ε),
    afterNth p (es.countP p) (es ++ [e]) = []
  | [] => by simp [afterNth, he]
  | a :: es => by
    have ih := afterNth_concat_eq_nil he es
    by_cases hp : p a
    · simp [afterNth, hp, ih]
    · rcases hc : es.countP p with _ | n <;> rw [hc] at ih <;>
        simp [afterNth, hp, hc, ih]

/-- The last value that `f` reads off an event. -/
def latest (f : ε → Option β) (es : List ε) : Option β := (es.filterMap f).getLast?

theorem latest_concat_none {f : ε → Option β} {e : ε} (h : f e = none) (es : List ε) :
    latest f (es ++ [e]) = latest f es := by
  simp [latest, h]

theorem latest_concat_some {f : ε → Option β} {e : ε} {b : β} (h : f e = some b) (es : List ε) :
    latest f (es ++ [e]) = some b := by
  simp [latest, h]

/-- What `f` reads off each event, given the history before it, which starts with `pre`. -/
def readingsFrom (f : List ε → ε → Option β) : List ε → List ε → List β
  | _, [] => []
  | pre, e :: es => (f pre e).toList ++ readingsFrom f (pre ++ [e]) es

def readings (f : List ε → ε → Option β) (es : List ε) : List β := readingsFrom f [] es

theorem readingsFrom_concat (f : List ε → ε → Option β) (e : ε) : ∀ es pre : List ε,
    readingsFrom f pre (es ++ [e]) = readingsFrom f pre es ++ (f (pre ++ es) e).toList
  | [], pre => by simp [readingsFrom]
  | a :: es, pre => by
    rw [List.cons_append, readingsFrom, readingsFrom_concat f e es, readingsFrom,
      List.append_assoc, List.append_assoc, List.singleton_append]

theorem readings_concat (f : List ε → ε → Option β) (es : List ε) (e : ε) :
    readings f (es ++ [e]) = readings f es ++ (f es e).toList :=
  readingsFrom_concat f e es []

end History
