import Mathlib
import TableRoster.Watch

/-! # Times as they are compared

A time that is no number compares to nothing. All others are in order, so a time that is not below
another is at it or above it, and times that compare as equal may stand for one another. -/

namespace TableRoster

open Float.Model Float.Model.UnpackedFloat

namespace Times

variable {a b c : UnpackedFloat} {x y z : Float}

theorem compare_eq_none : a.compare b = none ↔ a.isNaN = true ∨ b.isNaN = true := by
  fun_cases UnpackedFloat.compare a b <;> simp [UnpackedFloat.isNaN, *]

/-- Numbers compare as equal if they are the same, or both a zero. -/
theorem compare_eq_eq : a.compare b = some .eq ↔
    a = b ∧ a.isNaN = false ∨ ∃ s t, a = .zero s ∧ b = .zero t := by
  fun_cases UnpackedFloat.compare a b with
  | case3 s t => cases s <;> cases t <;> simp [UnpackedFloat.isNaN, compare]
  | case13 | case16 => simp [UnpackedFloat.isNaN, Ordering.then_eq_eq, and_comm]
  | _ => simp_all [UnpackedFloat.isNaN, eq_comm]

theorem size_swap (m n : Nat) (e f : Int) :
    ((compare e f).then (compare m n)).swap = (compare f e).then (compare n m) := by
  rw [Ordering.swap_then, ← Std.OrientedCmp.eq_swap, ← Std.OrientedCmp.eq_swap]

theorem compare_swap (a b : UnpackedFloat) : b.compare a = (a.compare b).map Ordering.swap := by
  fun_cases UnpackedFloat.compare a b with
  | case1 => cases b <;> rfl
  | case3 s t => cases s <;> cases t <;> rfl
  | case13 | case16 => simp [UnpackedFloat.compare, size_swap]
  | _ => simp [UnpackedFloat.compare]

theorem beq_iff : (x == y) = true ↔ x.toModel.unpack.compare y.toModel.unpack = some .eq := by
  change (x.toModel.unpack.compare y.toModel.unpack == some .eq) = true ↔ _
  exact beq_iff_eq

theorem beq_symm (h : (x == y) = true) : (y == x) = true := by
  rw [beq_iff] at h ⊢
  rw [compare_swap, h]
  rfl

theorem beq_trans (h : (x == y) = true) (h' : (y == z) = true) : (x == z) = true := by
  rw [beq_iff, compare_eq_eq] at *
  grind [UnpackedFloat.isNaN]

/-- A number is equal to itself. -/
theorem beq_self (h : x.isNaN = false) : (x == x) = true :=
  beq_iff.2 (compare_eq_eq.2 (.inl ⟨rfl, h⟩))

theorem lt_iff : x < y ↔ x.toModel.unpack.compare y.toModel.unpack = some .lt := by
  change decide ((x.toModel.unpack.compare y.toModel.unpack == some .lt) = true) = true ↔ _
  rw [decide_eq_true_iff, beq_iff_eq]

theorem le_iff : x ≤ y ↔ (x.toModel.unpack.compare y.toModel.unpack).any (·.isLE) = true := by
  change decide ((x.toModel.unpack.compare y.toModel.unpack).any (·.isLE) = true) = true ↔ _
  rw [decide_eq_true_iff]

theorem not_lt_iff : ¬ x < y ↔ y ≤ x ∨ x.isNaN = true ∨ y.isNaN = true := by
  have hnan : x.isNaN = true ∨ y.isNaN = true ↔ x.toModel.unpack.compare y.toModel.unpack = none :=
    compare_eq_none.symm
  rw [lt_iff, le_iff, hnan, compare_swap x.toModel.unpack]
  cases x.toModel.unpack.compare y.toModel.unpack with
  | none => simp
  | some o => cases o <;> simp

end Times

/-! ## Snapshots -/

namespace Snapshot

variable {a b c : Snapshot}

theorem mem_timesOf {d : Disk} {files : List Path} {file : Path} {x : Float} :
    (file, x) ∈ timesOf d files ↔ file ∈ files ∧ ∃ t, d.modified? file = some t ∧ x = seconds t := by
  simp only [timesOf, List.mem_filterMap, Option.map_eq_some_iff, Prod.mk.injEq]
  constructor
  · rintro ⟨f, hf, t, ht, rfl, rfl⟩
    exact ⟨hf, t, ht, rfl⟩
  · rintro ⟨hf, t, ht, rfl⟩
    exact ⟨file, hf, t, ht, rfl, rfl⟩

/-- Modules that are found are seen with their times. -/
theorem take_of_modules {s : Settings} {d : Disk} {files : List Path}
    (h : (Scan.modules s d).result = .ok files) : ∃ es, take s d = ⟨es, .ok (timesOf d files)⟩ := by
  unfold take
  split
  · rename_i found hfound
    rw [hfound] at h
    cases h
    exact ⟨_, rfl⟩
  · rename_i hfound
    rw [hfound] at h
    cases h
  · rename_i hfound
    rw [hfound] at h
    cases h

theorem same_cons {p q : Path × Float} : same (p :: a) (q :: b) = true ↔
    (p.1 = q.1 ∧ (p.2 == q.2) = true) ∧ same a b = true := by
  change ((p.1 == q.1 && p.2 == q.2) && a == b) = true ↔ _
  simp only [Bool.and_eq_true, beq_iff_eq]
  rfl

theorem same_symm (h : same a b = true) : same b a = true := by
  induction a generalizing b with
  | nil => cases b <;> simp_all [same]
  | cons p a ih =>
    cases b with
    | nil => simp [same] at h
    | cons q b =>
      obtain ⟨⟨hp, ht⟩, h⟩ := same_cons.1 h
      exact same_cons.2 ⟨⟨hp.symm, Times.beq_symm ht⟩, ih h⟩

theorem same_trans (h : same a b = true) (h' : same b c = true) : same a c = true := by
  induction a generalizing b c with
  | nil => cases b <;> simp_all [same]
  | cons p a ih =>
    cases b with
    | nil => simp [same] at h
    | cons q b =>
      cases c with
      | nil => simp [same] at h'
      | cons r c =>
        obtain ⟨⟨hp, ht⟩, h⟩ := same_cons.1 h
        obtain ⟨⟨hp', ht'⟩, h'⟩ := same_cons.1 h'
        exact same_cons.2 ⟨⟨hp.trans hp', Times.beq_trans ht ht'⟩, ih h h'⟩

theorem same_self (h : ∀ p ∈ a, p.2.isNaN = false) : same a a = true := by
  induction a with
  | nil => rfl
  | cons p a ih =>
    obtain ⟨hp, ha⟩ := List.forall_mem_cons.1 h
    exact same_cons.2 ⟨⟨rfl, Times.beq_self hp⟩, ih ha⟩

theorem mem_of_same (h : same a b = true) {file : Path} {x : Float} (hx : (file, x) ∈ a) :
    ∃ y, (file, y) ∈ b ∧ (x == y) = true := by
  induction a generalizing b with
  | nil => cases hx
  | cons p a ih =>
    cases b with
    | nil => simp [same] at h
    | cons q b =>
      obtain ⟨⟨hp, ht⟩, h⟩ := same_cons.1 h
      obtain hx | hx := List.mem_cons.1 hx
      · subst hx
        obtain ⟨file', y⟩ := q
        obtain rfl : file = file' := hp
        exact ⟨y, List.mem_cons_self, ht⟩
      · obtain ⟨y, hy, he⟩ := ih h hx
        exact ⟨y, List.mem_cons_of_mem _ hy, he⟩

/-- Snapshots that are the same are the same as the same ones. -/
theorem same_congr (h : same a b = true) (x : Snapshot) : same x a = same x b := by
  rw [Bool.eq_iff_iff]
  exact ⟨fun hx => same_trans hx h, fun hx => same_trans hx (same_symm h)⟩

end Snapshot

end TableRoster
