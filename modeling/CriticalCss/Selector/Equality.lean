import CriticalCss.Selector.Basic

/-!
# Equality of selectors

Equality of selectors, compounds and pseudo-classes is decidable, by comparison part by part at every
depth.
-/

namespace CriticalCss

namespace PseudoClass

mutual

/-- Equality of pseudo-classes is decidable. -/
def decEq : (a b : PseudoClass) → Decidable (a = b)
  | .condition c, .condition d => decidable_of_iff (c = d) (by simp)
  | .nth c e, .nth d f => decidable_of_iff (c = d ∧ e = f) (by simp)
  | .not ss, .not ts =>
    match decEqSelectors ss ts with
    | isTrue h => isTrue (by rw [h])
    | isFalse h => isFalse (by simpa using h)
  | .is ss, .is ts =>
    match decEqSelectors ss ts with
    | isTrue h => isTrue (by rw [h])
    | isFalse h => isFalse (by simpa using h)
  | .condition _, .nth .. => isFalse (by simp)
  | .condition _, .not _ => isFalse (by simp)
  | .condition _, .is _ => isFalse (by simp)
  | .nth .., .condition _ => isFalse (by simp)
  | .nth .., .not _ => isFalse (by simp)
  | .nth .., .is _ => isFalse (by simp)
  | .not _, .condition _ => isFalse (by simp)
  | .not _, .nth .. => isFalse (by simp)
  | .not _, .is _ => isFalse (by simp)
  | .is _, .condition _ => isFalse (by simp)
  | .is _, .nth .. => isFalse (by simp)
  | .is _, .not _ => isFalse (by simp)

/-- Equality of lists of selectors is decidable. -/
def decEqSelectors : (ss ts : List (SelectorOf PseudoClass)) → Decidable (ss = ts)
  | [], [] => isTrue rfl
  | [], _ :: _ => isFalse (by simp)
  | _ :: _, [] => isFalse (by simp)
  | s :: ss, t :: ts =>
    match decEqSelector s t, decEqSelectors ss ts with
    | isTrue h, isTrue h' => isTrue (by rw [h, h'])
    | isFalse h, _ => isFalse (by simp [h])
    | _, isFalse h => isFalse (by simp [h])

/-- Equality of selectors is decidable. -/
def decEqSelector : (s t : SelectorOf PseudoClass) → Decidable (s = t)
  | .compound p, .compound q =>
    match decEqCompound p q with
    | isTrue h => isTrue (by rw [h])
    | isFalse h => isFalse (by simpa using h)
  | .combined s c p, .combined t d q =>
    match decEqSelector s t, decEqCompound p q with
    | isTrue h, isTrue h' => decidable_of_iff (c = d) (by simp [h, h'])
    | isFalse h, _ => isFalse (by simp [h])
    | _, isFalse h => isFalse (by simp [h])
  | .compound _, .combined .. => isFalse (by simp)
  | .combined .., .compound _ => isFalse (by simp)

/-- Equality of compounds is decidable. -/
def decEqCompound : (p q : CompoundOf PseudoClass) → Decidable (p = q)
  | ⟨type, id, classes, attributes, pseudos, element⟩,
      ⟨type', id', classes', attributes', pseudos', element'⟩ =>
    match decEqList pseudos pseudos' with
    | isTrue h =>
      decidable_of_iff (type = type' ∧ id = id' ∧ classes = classes' ∧
        attributes = attributes' ∧ element = element') (by simp [h])
    | isFalse h => isFalse (by simp [h])

/-- Equality of lists of pseudo-classes is decidable. -/
def decEqList : (ps qs : List PseudoClass) → Decidable (ps = qs)
  | [], [] => isTrue rfl
  | [], _ :: _ => isFalse (by simp)
  | _ :: _, [] => isFalse (by simp)
  | p :: ps, q :: qs =>
    match decEq p q, decEqList ps qs with
    | isTrue h, isTrue h' => isTrue (by rw [h, h'])
    | isFalse h, _ => isFalse (by simp [h])
    | _, isFalse h => isFalse (by simp [h])

end

instance : DecidableEq PseudoClass := decEq

end PseudoClass

end CriticalCss
