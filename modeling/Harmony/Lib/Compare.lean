import Harmony.Lib.GoBytes

/-!
Comparators written the way Go writes them by hand, and the laws they inherit. A slice compared
element by element is `List.compareLex`, a record compared field after field is `compareLex` of
comparisons of its fields, and both keep the laws of a total order (`Std.TransCmp`) and of
equality (`Std.LawfulEqCmp`) from the comparisons they are built from.
-/

namespace Go

variable {α β : Type}

/-- Go's element-by-element slice comparison is core's lexicographic order. -/
theorem compareSlices_eq_compareLex (cmp : α → α → Ordering) :
    compareSlices cmp = List.compareLex cmp := by
  funext l₁ l₂
  induction l₁ generalizing l₂ with
  | nil => cases l₂ <;> simp [compareSlices, List.compareLex_nil_nil, List.compareLex_nil_cons]
  | cons a as ih =>
    cases l₂ with
    | nil => simp [compareSlices, List.compareLex_cons_nil]
    | cons b bs =>
      -- Both stop at the first pair of elements that differ.
      rw [compareSlices, List.compareLex_cons_cons, ← ih]
      cases cmp a b <;> rfl

/-- `bytes.Compare` is the lexicographic order of byte lists. -/
theorem bytesCompare_eq_compare (a b : Bytes) : bytesCompare a b = compare a b := by
  rw [List.compare_eq_compareLex]
  induction a generalizing b with
  | nil => cases b <;> simp [bytesCompare, List.compareLex_nil_nil, List.compareLex_nil_cons]
  | cons x xs ih =>
    cases b with
    | nil => simp [bytesCompare, List.compareLex_cons_nil]
    | cons y ys =>
      rw [bytesCompare, List.compareLex_cons_cons, ← ih]
      -- Go tests `<` both ways; the byte order tells the same three cases apart.
      by_cases below : x < y
      · simp [below, Std.compare_eq_lt.mpr below]
      · by_cases above : y < x
        · simp [below, above, Std.compare_eq_gt.mpr above]
        · have same : x = y := UInt8.le_antisymm (UInt8.not_lt.mp above) (UInt8.not_lt.mp below)
          simp [same]

/-- Values compared by what `f` gives, Go's `cmp(f(a), f(b))`. -/
def compareBy (cmp : β → β → Ordering) (f : α → β) (a b : α) : Ordering := cmp (f a) (f b)

instance compareBy_oriented (cmp : β → β → Ordering) (f : α → β) [Std.OrientedCmp cmp] :
    Std.OrientedCmp (compareBy cmp f) where
  eq_swap := by
    intro a b
    simp only [compareBy]
    exact Std.OrientedCmp.eq_swap

instance compareBy_trans (cmp : β → β → Ordering) (f : α → β) [Std.TransCmp cmp] :
    Std.TransCmp (compareBy cmp f) where
  isLE_trans := by
    intro a b c first second
    simp only [compareBy] at first second ⊢
    exact Std.TransCmp.isLE_trans first second

/--
A comparison field after field tells values apart when its fields together do: the first
comparison is reflexive, and values equal on both fields are equal.
-/
theorem lawfulEqCmp_compareLex {cmp₁ cmp₂ : α → α → Ordering} [Std.ReflCmp cmp₁]
    [Std.ReflCmp cmp₂] (fields : ∀ a b, cmp₁ a b = .eq → cmp₂ a b = .eq → a = b) :
    Std.LawfulEqCmp (compareLex cmp₁ cmp₂) where
  compare_self := by simp [Std.ReflCmp.compare_self]
  eq_of_compare := by
    intro a b same
    obtain ⟨first, second⟩ := compareLex_eq_eq.mp same
    exact fields a b first second

end Go
