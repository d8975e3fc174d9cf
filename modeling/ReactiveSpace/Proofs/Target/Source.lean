import ReactiveSpace.Deployment

/-!
# Deployable spaces have a source

The name of a unit is made of letters, digits and underscores whatever the name of the space
(`isUnitName_unitName`), so being deployable is all that it takes to generate a unit
(`generate_eq_ok`).
-/

namespace ReactiveSpace

theorem isAlphanum_toLower {c : Char} (h : c.isAlphanum = true) : c.toLower.isAlphanum = true := by
  unfold Char.toLower
  split
  · rename_i hupper
    unfold Char.isAlphanum Char.isAlpha Char.isLower
    simp only [Bool.or_eq_true, Bool.and_eq_true, decide_eq_true_eq]
    left; right
    grind [UInt32.le_iff_toNat_le, UInt32.toNat_add]
  · exact h

namespace Declarations

variable {d : Declarations}

theorem isUnitName_unitName (d : Declarations) : Name.isUnitName d.unitName = true := by
  have hpart : ∀ c : Char, Name.isPart (if c.isAlphanum then c.toLower else '_') = true := by
    intro c
    unfold Name.isPart
    split
    · rename_i hc
      simp [isAlphanum_toLower hc]
    · rfl
  have hname : d.unitName.toList = 'l' :: ("ivedoc_".toList ++
      d.space.toList.map fun c => if c.isAlphanum then c.toLower else '_') := by
    simp [unitName]
  rw [Name.isUnitName, hname]
  dsimp only
  rw [List.all_append, List.all_map, Bool.and_eq_true, Bool.and_eq_true, List.all_eq_true,
    List.all_eq_true]
  exact ⟨by decide, List.all_eq_true.1 rfl, fun c _ => hpart c⟩

/-- A deployable space has a unit, whose source is that of its table and surface. This is the source
that is written where spelling ends. With an alias that contains itself writing goes on for ever
(`spelling_ends_iff`), while the unit here has the alias cut off as in `Shape.expand`. -/
theorem generate_eq_ok (h : d.check.isDeployable = true) :
    d.generate = .ok ⟨d.unitName,
      Code.source (Target.unitCode d.check.table d.surface d.unitName),
      Reflection.ofTable d.check.table⟩ := by
  simp [generate, Target.unitSource, h, d.isUnitName_unitName]

end Declarations

end ReactiveSpace
