import Thintuit.Server.Values
import Thintuit.Sql.OrderBy

/-! The aggregate query behind the accuracy endpoint. NULL is `none`: it forms a
group of its own and is equal to nothing under `=`. -/
namespace Thintuit.Server

structure TestRecord where
  modelId : Option PyStr
  correctCategory : Option PyStr
  mlCategoryFinal : Option PyStr
  deriving DecidableEq

structure AccuracyRow where
  modelId : Option PyStr
  correctCategory : Option PyStr
  total : Nat
  correct : Nat
  accuracyPercent : Rat
  deriving DecidableEq

/-- SQL equality as a filter sees it: unknown counts as false. -/
def sqlEq : Option PyStr → Option PyStr → Bool
  | some a, some b => a == b
  | _, _ => false

/-- `ROUND(x, 2)` on NUMERIC, which rounds ties away from zero. -/
def round2 (x : Rat) : Rat :=
  if x < 0 then -((⌊-x * 100 + 1/2⌋ : Int) / 100 : Rat) else (⌊x * 100 + 1/2⌋ : Int) / 100

/-- `ORDER BY correct_category, model_id`. -/
def accuracyOrder (collate : PyStr → PyStr → Bool) : AccuracyRow → AccuracyRow → Bool :=
  Sql.thenBy AccuracyRow.correctCategory (Sql.nullsLast collate) AccuracyRow.modelId (Sql.nullsLast collate)

def accuracyGroup (records : List TestRecord) (key : Option PyStr × Option PyStr) : AccuracyRow :=
  let members := records.filter (fun r => (r.modelId,r.correctCategory) = key)
  let correct := members.countP (fun r => sqlEq r.mlCategoryFinal r.correctCategory)
  { modelId := key.1
    correctCategory := key.2
    total := members.length
    correct := correct
    accuracyPercent := round2 ((correct : Rat) / members.length * 100) }

def accuracyQuery (collate : PyStr → PyStr → Bool) (records : List TestRecord) : List AccuracyRow :=
  ((records.map (fun r => (r.modelId,r.correctCategory))).dedup.map (accuracyGroup records)).mergeSort
    (accuracyOrder collate)

def nullable : Option PyStr → Json
  | some s => .str s
  | none => .null

def AccuracyRow.dict (r : AccuracyRow) : Json :=
  .obj [(py "model_id",nullable r.modelId),(py "correct_category",nullable r.correctCategory),
    (py "total",.int r.total),(py "correct",.int r.correct),
    (py "accuracy_percent",.float (.finite r.accuracyPercent))]

/-! What the query returns. -/

theorem round2_of_nonneg {x : Rat} (hx : 0 ≤ x) : round2 x = (⌊x * 100 + 1/2⌋ : Int) / 100 := if_neg (not_lt.mpr hx)

/-- A rounded percentage is one again. -/
theorem round2_percentage {x : Rat} (h0 : 0 ≤ x) (h100 : x ≤ 100) : 0 ≤ round2 x ∧ round2 x ≤ 100 := by
  rw [round2_of_nonneg h0]
  have hlow : (0 : Int) ≤ ⌊x * 100 + 1/2⌋ := by
    apply Int.floor_nonneg.mpr
    linarith
  have hhigh : ⌊x * 100 + 1/2⌋ ≤ (10000 : Int) := by
    apply Int.lt_add_one_iff.mp
    apply Int.floor_lt.mpr
    push_cast
    linarith
  have hlow' : (0 : Rat) ≤ (⌊x * 100 + 1/2⌋ : Int) := by exact_mod_cast hlow
  have hhigh' : ((⌊x * 100 + 1/2⌋ : Int) : Rat) ≤ 10000 := by exact_mod_cast hhigh
  constructor
  · positivity
  · linarith

def AccuracyRow.key (row : AccuracyRow) : Option PyStr × Option PyStr := (row.modelId,row.correctCategory)

def TestRecord.key (r : TestRecord) : Option PyStr × Option PyStr := (r.modelId,r.correctCategory)

section Query
variable (collate : PyStr → PyStr → Bool) (records : List TestRecord)

theorem mem_accuracyQuery_iff (row : AccuracyRow) :
    row ∈ accuracyQuery collate records ↔ ∃ r ∈ records, row = accuracyGroup records r.key := by
  rw [accuracyQuery,(List.mergeSort_perm _ _).mem_iff]
  simp only [List.mem_map,List.mem_dedup]
  constructor
  · rintro ⟨_,⟨r,hr,rfl⟩,rfl⟩
    exact ⟨r,hr,rfl⟩
  · rintro ⟨r,hr,rfl⟩
    exact ⟨_,⟨r,hr,rfl⟩,rfl⟩

/-- The query returns one row for each group. -/
theorem accuracyQuery_keys_nodup : ((accuracyQuery collate records).map AccuracyRow.key).Nodup := by
  have hkey : (AccuracyRow.key ∘ accuracyGroup records) = id := rfl
  have hperm := (List.mergeSort_perm ((records.map (fun r => (r.modelId,r.correctCategory))).dedup.map
    (accuracyGroup records)) (accuracyOrder collate)).map AccuracyRow.key
  rw [accuracyQuery,hperm.nodup_iff,List.map_map,hkey,List.map_id]
  exact List.nodup_dedup _

variable {records}

/-- A group has members: the quotient is never taken by zero. -/
theorem accuracyGroup_total_pos {r : TestRecord} (hr : r ∈ records) : 0 < (accuracyGroup records r.key).total := by
  apply List.length_pos_of_mem (a := r)
  exact List.mem_filter.mpr ⟨hr,by simp [TestRecord.key]⟩

variable (records) in
theorem accuracyGroup_total (key : Option PyStr × Option PyStr) :
    (accuracyGroup records key).total = records.countP (fun r => r.key = key) := List.countP_eq_length_filter.symm

variable (records) in
theorem accuracyGroup_correct (key : Option PyStr × Option PyStr) :
    (accuracyGroup records key).correct =
      records.countP (fun r => sqlEq r.mlCategoryFinal r.correctCategory && r.key = key) := by
  exact List.countP_filter

theorem accuracyGroup_percentage (key : Option PyStr × Option PyStr) :
    0 ≤ (accuracyGroup records key).accuracyPercent ∧ (accuracyGroup records key).accuracyPercent ≤ 100 := by
  have hle : (accuracyGroup records key).correct ≤ (accuracyGroup records key).total := List.countP_le_length
  apply round2_percentage
  · positivity
  · have hle' : ((accuracyGroup records key).correct : Rat) ≤ (accuracyGroup records key).total := by exact_mod_cast hle
    have hdiv := div_le_one_of_le₀ hle' (Nat.cast_nonneg _)
    have hmul : ((accuracyGroup records key).correct : Rat) / (accuracyGroup records key).total * 100 ≤ 1 * 100 := by
      gcongr
    exact hmul.trans_eq (one_mul _)

end Query
end Thintuit.Server
