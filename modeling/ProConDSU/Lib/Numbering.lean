import Mathlib.Logic.Function.Iterate

/-!
# One counter for many keys

Entries are numbered in order, whatever their keys. The numbers of a key count up one by one just
when going round the counter once for each entry in between comes back to where it was
(`perKey_number_iff`).
-/

namespace Numbering

variable {κ ν : Type} (succ : ν → ν)

def number : ν → List κ → List (κ × ν)
  | _, [] => []
  | k, c :: cs => (c, k) :: number (succ k) cs

@[simp] theorem length_number : ∀ (k : ν) (cs : List κ), (number succ k cs).length = cs.length
  | _, [] => rfl
  | k, c :: cs => by simp [number, length_number (succ k) cs]

@[simp] theorem map_fst_number : ∀ (k : ν) (cs : List κ), (number succ k cs).map Prod.fst = cs
  | _, [] => rfl
  | k, c :: cs => by simp [number, map_fst_number (succ k) cs]

theorem getElem?_number : ∀ (k : ν) (cs : List κ) (i : ℕ),
    (number succ k cs)[i]? = cs[i]?.map fun c => (c, succ^[i] k)
  | _, [], _ => by simp [number]
  | _, _ :: _, 0 => rfl
  | k, c :: cs, i + 1 => by
    rw [number, List.getElem?_cons_succ, List.getElem?_cons_succ, getElem?_number (succ k) cs i,
      Function.iterate_succ_apply]

theorem number_append : ∀ (k : ν) (cs ds : List κ),
    number succ k (cs ++ ds) = number succ k cs ++ number succ (succ^[cs.length] k) ds
  | _, [], _ => rfl
  | k, c :: cs, ds => by
    rw [List.cons_append, number, number_append (succ k) cs ds, number, List.cons_append,
      List.length_cons, Function.iterate_succ_apply]

/-- Each number is the successor of the one before it with the same key. -/
def PerKey (l : List (κ × ν)) : Prop :=
  ∀ (c : κ) (a b : ν) (pre mid post : List (κ × ν)),
    l = pre ++ (c, a) :: (mid ++ (c, b) :: post) → (∀ e ∈ mid, e.1 ≠ c) → b = succ a

theorem number_split (k : ν) (c : κ) (pre mid post : List κ) :
    ∃ post', number succ k (pre ++ c :: (mid ++ c :: post))
      = number succ k pre ++ (c, succ^[pre.length] k) ::
        (number succ (succ (succ^[pre.length] k)) mid
          ++ (c, succ^[mid.length] (succ (succ^[pre.length] k))) :: post') :=
  ⟨number succ (succ (succ^[mid.length] (succ (succ^[pre.length] k)))) post, by
    rw [number_append, number, number_append, number]⟩

theorem perKey_number_iff (k : ν) (cs : List κ) : PerKey succ (number succ k cs)
    ↔ ∀ (c : κ) (pre mid post : List κ), cs = pre ++ c :: (mid ++ c :: post) → c ∉ mid →
      succ^[mid.length] (succ (succ^[pre.length] k)) = succ (succ^[pre.length] k) := by
  refine ⟨?_, ?_⟩
  · rintro h c pre mid post rfl hmid
    obtain ⟨post', hsplit⟩ := number_split succ k c pre mid post
    refine h c _ _ _ _ _ hsplit fun e he hc => hmid ?_
    rw [← map_fst_number succ (succ (succ^[pre.length] k)) mid, ← hc]
    exact List.mem_map_of_mem he
  · intro h c a b pre mid post hl hmid
    have hcs : cs = pre.map Prod.fst ++ c :: (mid.map Prod.fst ++ c :: post.map Prod.fst) := by
      rw [← map_fst_number succ k cs, hl]
      simp
    obtain ⟨post', hsplit⟩ := number_split succ k c (pre.map Prod.fst) (mid.map Prod.fst)
      (post.map Prod.fst)
    rw [hcs, hsplit] at hl
    obtain ⟨-, hrest⟩ := List.append_inj hl (by simp)
    simp only [List.cons.injEq, Prod.mk.injEq, true_and] at hrest
    obtain ⟨rfl, hrest⟩ := hrest
    obtain ⟨-, hlast⟩ := List.append_inj hrest (by simp)
    simp only [List.cons.injEq, Prod.mk.injEq, true_and] at hlast
    rw [← hlast.1]
    refine h c _ _ _ hcs fun hc => ?_
    obtain ⟨e, he, hec⟩ := List.mem_map.1 hc
    exact hmid e he hec

end Numbering
