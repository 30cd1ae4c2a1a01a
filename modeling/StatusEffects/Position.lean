/-!
# Positions

World coordinates and the inclusive distance test that conditions and radius queries share.
-/

namespace StatusEffects

/-- Coordinates of an actor. -/
structure Position where
  x : Int32
  y : Int32
  z : Int32
deriving DecidableEq, Repr

namespace Position

/-- The centre of the world. -/
def origin : Position := ⟨0, 0, 0⟩

instance : Inhabited Position := ⟨origin⟩

/-- Square of the distance along one axis. -/
def gapSquared (a b : Int32) : Int := (a.toInt - b.toInt) * (a.toInt - b.toInt)

/-- Square of the straight-line distance. -/
def distanceSquared (a b : Position) : Int :=
  gapSquared a.x b.x + gapSquared a.y b.y + gapSquared a.z b.z

/-- Whether `b` lies at most `radius` away from `a`. -/
def within (a b : Position) (radius : UInt32) : Bool :=
  decide (a.distanceSquared b ≤ (radius.toNat : Int) * radius.toNat)

theorem gapSquared_comm (a b : Int32) : gapSquared a b = gapSquared b a := by
  simp only [gapSquared]
  rw [← Int.neg_sub b.toInt a.toInt, Int.neg_mul_neg]

theorem distanceSquared_comm (a b : Position) : a.distanceSquared b = b.distanceSquared a := by
  simp only [distanceSquared, gapSquared_comm a.x, gapSquared_comm a.y, gapSquared_comm a.z]

theorem within_comm (a b : Position) (radius : UInt32) : a.within b radius = b.within a radius := by
  simp only [within, distanceSquared_comm a b]

end Position

end StatusEffects
