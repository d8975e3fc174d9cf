/-!
# Names that remain

Several walks pass over names and never pass the same one twice. Each ends because the names that
remain grow fewer with every step, which is the one law here.
-/

namespace ReactiveSpace

/-- The names of `all` that are not among `seen`. -/
def remaining (all seen : List String) : List String :=
  all.filter fun n => !seen.contains n

/-- Seeing more names, one of those that remain among them, leaves fewer. -/
theorem length_remaining_lt {all seen more : List String} {name : String}
    (hsub : ∀ n ∈ seen, n ∈ more) (hs : name ∉ seen) (hm : name ∈ more) (ha : name ∈ all) :
    (remaining all more).length < (remaining all seen).length := by
  have hsplit : remaining all more = (remaining all seen).filter (fun n => !more.contains n) := by
    simp only [remaining, List.filter_filter]
    apply List.filter_congr
    intro x _
    by_cases hx : x ∈ more
    · simp [hx]
    · have hxs : x ∉ seen := fun h => hx (hsub x h)
      simp [hx, hxs]
  rw [hsplit]
  have hmem : name ∈ remaining all seen := by
    simp [remaining, ha, hs]
  refine Nat.lt_of_le_of_ne (List.length_filter_le _ _) ?_
  intro heq
  have hall := List.length_filter_eq_length_iff.1 heq
  have hname := hall name hmem
  simp [hm] at hname

/-- Seeing one of the names that remain leaves fewer. -/
theorem length_remaining_cons_lt {all seen : List String} {name : String}
    (hs : name ∉ seen) (ha : name ∈ all) :
    (remaining all (name :: seen)).length < (remaining all seen).length :=
  length_remaining_lt (fun _ => List.mem_cons_of_mem _) hs List.mem_cons_self ha

end ReactiveSpace
