import Thintuit.Client.Chart

/-! The misclassification rates of `visualization/purity-chart.js` and
`visualization/render3DPurityChart.js`, in exact arithmetic: what the two views show of the
same rows, and how a rate goes with the accuracy that the server sends beside it. -/
namespace Thintuit.Client
open Server

/-- A row with its two counts. A count that is missing or `null` is `none`. -/
structure MeasuredRow extends ChartRow where
  total : Option Rat
  correct : Option Rat
  deriving DecidableEq

/-- `toFixed(2)`, as the number that is printed. Ties go away from zero. -/
def toFixed2 (x : Rat) : Rat :=
  if x < 0 then -((⌊-x * 100 + 1/2⌋ : Int) / 100 : Rat) else (⌊x * 100 + 1/2⌋ : Int) / 100

def MeasuredRow.wrongRate (item : MeasuredRow) : Rat :=
  let total := item.total.getD 0
  let correct := item.correct.getD 0
  if total = 0 then 0 else (1 - correct / total) * 100

/-- The page with the rows as `chartData.raw` holds them. -/
structure MeasuredPage extends Page where
  rows : List MeasuredRow
  raw_eq : raw = rows.map MeasuredRow.toChartRow

structure PurityDataset where
  label : Option PyStr
  data : List Rat
  backgroundColor : PyStr
  borderColor : PyStr
  deriving DecidableEq

structure PurityChart where
  labels : List PyStr
  datasets : List PurityDataset
  title : PyStr
  scales : List Scale
  deriving DecidableEq

structure DataPoint where
  modelIndex : Nat
  catIndex : Nat
  rate : Rat
  model : Option PyStr
  category : PyStr
  wrongRate : Rat
  deriving DecidableEq

structure PurityChart3D where
  xAxis3D : List (Option PyStr)
  yAxis3D : List PyStr
  data : List DataPoint
  deriving DecidableEq

namespace MeasuredPage
variable (page : MeasuredPage)

def item (model : Option PyStr) (cat : PyStr) : Option MeasuredRow :=
  page.rows.find? (fun d => d.modelId = model && d.correctCategory = some cat)

def wrongCell (model : Option PyStr) (cat : PyStr) : Rat :=
  match page.item model cat with
  | none => 0
  | some item => toFixed2 item.wrongRate

def purityDataset (model : Option PyStr) : PurityDataset where
  label := model
  data := page.selectedCats.map (page.wrongCell model)
  backgroundColor := page.colors (templateText model)
  borderColor := page.colors (templateText model)

def renderPurityChart : PurityChart where
  labels := page.selectedCats.map categoryLabel
  datasets := page.selectedModels.map page.purityDataset
  title := py "Misclassification Rate (%) per Model and Category"
  scales := [⟨none,py "Category"⟩,⟨some 100,py "Misclassification Rate (%)"⟩]

def dataPoint (model : Option PyStr) (modelIndex : Nat) (cat : PyStr) (catIndex : Nat) : Option DataPoint :=
  (page.item model cat).map (fun item =>
    ⟨modelIndex,catIndex,toFixed2 item.wrongRate,model,categoryLabel cat,toFixed2 item.wrongRate⟩)

def render3DPurityChart : PurityChart3D where
  xAxis3D := page.selectedModels
  yAxis3D := page.selectedCats.map categoryLabel
  data := page.selectedModels.zipIdx.flatMap (fun (model,i) =>
    page.selectedCats.zipIdx.filterMap (fun (cat,j) => page.dataPoint model i cat j))

end MeasuredPage

/-! The facts that a view shows: a model, the label of a category and a rate. -/

abbrev Fact := Option PyStr × PyStr × Rat

/-- One fact for each dataset and label. -/
def PurityChart.shown (chart : PurityChart) : List Fact :=
  chart.datasets.flatMap (fun d => (chart.labels.zip d.data).map (fun (label,rate) => (d.label,label,rate)))

/-- One fact for each point, read through its indices. -/
def PurityChart3D.shown (chart : PurityChart3D) : List Fact :=
  chart.data.filterMap (fun p => do
    let model ← chart.xAxis3D[p.modelIndex]?
    let label ← chart.yAxis3D[p.catIndex]?
    some (model,label,p.rate))

section Shown
variable (page : MeasuredPage)

theorem mem_renderPurityChart_iff (fact : Fact) :
    fact ∈ page.renderPurityChart.shown ↔ ∃ model ∈ page.selectedModels, ∃ cat ∈ page.selectedCats,
      fact = (model,categoryLabel cat,page.wrongCell model cat) := by
  have hzip : ∀ model, page.renderPurityChart.labels.zip (page.purityDataset model).data =
      page.selectedCats.map (fun cat => (categoryLabel cat,page.wrongCell model cat)) := fun model => List.zip_map'
  have hdatasets : page.renderPurityChart.datasets = page.selectedModels.map page.purityDataset := rfl
  simp only [PurityChart.shown,hdatasets,List.mem_flatMap,List.mem_map]
  constructor
  · rintro ⟨_,⟨model,hmodel,rfl⟩,_,hpair,rfl⟩
    rw [hzip] at hpair
    obtain ⟨cat,hcat,rfl⟩ := List.mem_map.mp hpair
    exact ⟨model,hmodel,cat,hcat,rfl⟩
  · rintro ⟨model,hmodel,cat,hcat,rfl⟩
    refine ⟨_,⟨model,hmodel,rfl⟩,(categoryLabel cat,page.wrongCell model cat),?_,rfl⟩
    rw [hzip]
    exact List.mem_map_of_mem hcat

theorem mem_data_iff (p : DataPoint) :
    p ∈ page.render3DPurityChart.data ↔ ∃ model cat item, page.selectedModels[p.modelIndex]? = some model ∧
      page.selectedCats[p.catIndex]? = some cat ∧ page.item model cat = some item ∧
      p = ⟨p.modelIndex,p.catIndex,toFixed2 item.wrongRate,model,categoryLabel cat,toFixed2 item.wrongRate⟩ := by
  simp only [MeasuredPage.render3DPurityChart,List.mem_flatMap,List.mem_filterMap,Prod.exists,
    List.mk_mem_zipIdx_iff_getElem?,MeasuredPage.dataPoint,Option.map_eq_some_iff]
  constructor
  · rintro ⟨model,i,hi,cat,j,hj,item,hitem,rfl⟩
    exact ⟨model,cat,item,hi,hj,hitem,rfl⟩
  · rintro ⟨model,cat,item,hi,hj,hitem,hp⟩
    exact ⟨model,_,hi,cat,_,hj,item,hitem,hp.symm⟩

/-- What a point says of itself in its tooltip is what its indices and its height say. -/
theorem data_consistent {p : DataPoint} (hp : p ∈ page.render3DPurityChart.data) :
    page.render3DPurityChart.xAxis3D[p.modelIndex]? = some p.model ∧
      page.render3DPurityChart.yAxis3D[p.catIndex]? = some p.category ∧ p.wrongRate = p.rate := by
  obtain ⟨model,cat,item,hi,hj,-,hp⟩ := (mem_data_iff page p).mp hp
  have hlabel : page.render3DPurityChart.yAxis3D[p.catIndex]? = some (categoryLabel cat) := by
    simp [MeasuredPage.render3DPurityChart,hj]
  rw [hp]
  exact ⟨hi,hlabel,rfl⟩

theorem mem_render3DPurityChart_iff (fact : Fact) :
    fact ∈ page.render3DPurityChart.shown ↔ ∃ model ∈ page.selectedModels, ∃ cat ∈ page.selectedCats,
      ∃ item, page.item model cat = some item ∧ fact = (model,categoryLabel cat,toFixed2 item.wrongRate) := by
  rw [PurityChart3D.shown,List.mem_filterMap]
  constructor
  · rintro ⟨p,hp,hfact⟩
    obtain ⟨hx,hy,-⟩ := data_consistent page hp
    obtain ⟨model,cat,item,hi,hj,hitem,heq⟩ := (mem_data_iff page p).mp hp
    rw [hx,hy,heq] at hfact
    exact ⟨model,List.mem_of_getElem? hi,cat,List.mem_of_getElem? hj,item,hitem,(Option.some.inj hfact).symm⟩
  · rintro ⟨model,hmodel,cat,hcat,item,hitem,rfl⟩
    obtain ⟨i,hi⟩ := List.mem_iff_getElem?.mp hmodel
    obtain ⟨j,hj⟩ := List.mem_iff_getElem?.mp hcat
    have hp := (mem_data_iff page ⟨i,j,_,model,categoryLabel cat,_⟩).mpr ⟨model,cat,item,hi,hj,hitem,rfl⟩
    obtain ⟨hx,hy,-⟩ := data_consistent page hp
    refine ⟨_,hp,?_⟩
    rw [hx,hy]
    rfl

end Shown

theorem categoryLabel_inj : ∀ a ∈ drawnCategories, ∀ b ∈ drawnCategories, categoryLabel a = categoryLabel b → a = b := by
  decide

theorem MeasuredPage.item_isSome_iff (page : MeasuredPage) (model : Option PyStr) (cat : PyStr) :
    (∃ item, page.item model cat = some item) ↔ ∃ d ∈ page.rows, d.modelId = model ∧ d.correctCategory = some cat := by
  rw [← Option.isSome_iff_exists,MeasuredPage.item,List.find?_isSome]
  simp

/-- The two views show the same facts if every model whose id finds a ticked box has a record in every
category that is drawn and whose id finds one. -/
theorem same_facts_iff (page : MeasuredPage) :
    (∀ fact, fact ∈ page.renderPurityChart.shown ↔ fact ∈ page.render3DPurityChart.shown) ↔
      ∀ d ∈ page.rows, page.ModelTicked d.modelId → ∀ e ∈ page.rows, ∀ cat ∈ drawnCategories,
        e.correctCategory = some cat → page.CategoryTicked cat →
          ∃ row ∈ page.rows, row.modelId = d.modelId ∧ row.correctCategory = some cat := by
  have hrow : ∀ P : ChartRow → Prop, (∃ d ∈ page.raw, P d) ↔ ∃ d ∈ page.rows, P d.toChartRow := by
    intro P
    rw [page.raw_eq]
    simp
  have hmodel : ∀ d ∈ page.rows, page.ModelTicked d.modelId → d.modelId ∈ page.selectedModels := by
    intro d hd ht
    rw [mem_selectedModels_iff_ticked,hrow]
    exact ⟨⟨d,hd,rfl⟩,ht⟩
  constructor
  · intro h d hd hticked e he cat hcat hcategory hticked'
    have hshown : cat ∈ page.selectedCats := by
      rw [mem_selectedCats_iff,hrow]
      exact ⟨hcat,⟨e,he,hcategory⟩,hticked'⟩
    -- the bar is there in any case, and its label tells the category
    have hbar := (mem_renderPurityChart_iff page _).mpr ⟨d.modelId,hmodel d hd hticked,cat,hshown,rfl⟩
    obtain ⟨model,-,cat',hcat',item,hitem,hfact⟩ := (mem_render3DPurityChart_iff page _).mp ((h _).mp hbar)
    simp only [Prod.mk.injEq] at hfact
    obtain rfl := hfact.1
    obtain rfl := categoryLabel_inj cat hcat cat' ((mem_selectedCats_iff page.toPage cat').mp hcat').1 hfact.2.1
    exact (page.item_isSome_iff _ _).mp ⟨item,hitem⟩
  · intro h fact
    rw [mem_renderPurityChart_iff,mem_render3DPurityChart_iff]
    refine exists_congr (fun model => and_congr_right (fun hm => exists_congr (fun cat => and_congr_right (fun hc => ?_))))
    rw [mem_selectedModels_iff_ticked,hrow] at hm
    rw [mem_selectedCats_iff,hrow] at hc
    obtain ⟨⟨d,hd,rfl⟩,hticked⟩ := hm
    obtain ⟨hcat,⟨e,he,hcategory⟩,hticked'⟩ := hc
    obtain ⟨item,hitem⟩ := (page.item_isSome_iff _ _).mpr (h d hd hticked e he cat hcat hcategory hticked')
    simp [MeasuredPage.wrongCell,hitem]

/-- Two models, each with records in a category of its own. -/
def unevenPage : MeasuredPage where
  html := plainHtml
  rows := [⟨⟨some (py "m1"),some (py "RECYCLABLE"),50⟩,some 2,some 1⟩,⟨⟨some (py "m2"),some (py "HAZARDOUS"),100⟩,some 1,some 1⟩]
  raw := [⟨some (py "m1"),some (py "RECYCLABLE"),50⟩,⟨some (py "m2"),some (py "HAZARDOUS"),100⟩]
  setting := ⟨fun _ => true,fun _ => true⟩
  chartTypes := [.bar]
  horizontal := true
  colors := fun _ => py "rgba(0,0,0,0.6)"
  raw_eq := rfl

/-- The bars claim that a model without any record of a category makes no mistakes in it. -/
theorem uneven_facts :
    (some (py "m1"),py "Hazardous Waste",0) ∈ unevenPage.renderPurityChart.shown ∧
      (some (py "m1"),py "Hazardous Waste",0) ∉ unevenPage.render3DPurityChart.shown := by decide +kernel

/-! Rates and accuracies. -/

def readCount : Option Json → Option (Option Rat)
  | none | some .null => some none
  | some (.int n) => some (some n)
  | _ => none

def readMeasuredRow (row : Json) : Option MeasuredRow :=
  match row, readRow row with
  | .obj fields, some chartRow => do
    let total ← readCount (fields.lookup (py "total"))
    let correct ← readCount (fields.lookup (py "correct"))
    some ⟨chartRow,total,correct⟩
  | _, _ => none

/-- A row of the query, as the page holds it. -/
def measuredRow (row : AccuracyRow) : MeasuredRow := ⟨chartRow row,some row.total,some row.correct⟩

theorem readMeasuredRow_dict (row : AccuracyRow) : readMeasuredRow row.dict = some (measuredRow row) := by
  have hrow := readRow_dict row
  unfold readMeasuredRow
  rw [hrow]
  rfl

/-- A number and what it lacks to one, rounded down: together one less, unless the number is whole. -/
private theorem floor_complement_of_int (k : Int) : ⌊(k : Rat)⌋ + ⌊1 - (k : Rat)⌋ = 1 := by
  rw [Int.floor_intCast,← Int.cast_one,← Int.cast_sub,Int.floor_intCast]
  omega

private theorem floor_complement_of_ne {y : Rat} (h : ∀ k : Int, y ≠ k) : ⌊y⌋ + ⌊1 - y⌋ = 0 := by
  have hceil : ⌈y⌉ = ⌊y⌋ + 1 := by
    rw [Int.ceil_eq_floor_add_one_iff_notMem]
    rintro ⟨k,hk⟩
    exact h k hk.symm
  have hneg : ⌊1 - y⌋ = 1 - ⌈y⌉ := by
    rw [sub_eq_add_neg,add_comm,Int.floor_add_one,Int.floor_neg]
    omega
  omega

/-- `m` is an odd multiple of `n`. -/
def OddMultiple (m n : Nat) : Prop := ∃ k, m = (2 * k + 1) * n

section Complement
variable {total correct : Nat}

/-- The accuracy lies half way between two hundredths of a percent. -/
private theorem tie_iff (hpos : 1 ≤ total) :
    (∃ k : Int, (correct : Rat) / total * 100 * 100 + 1/2 = k) ↔ OddMultiple (20000 * correct) total := by
  have hne : (total : Rat) ≠ 0 := by positivity
  constructor
  · rintro ⟨k,hk⟩
    have hrat : (20000 * correct : Rat) = (2 * k - 1) * total := by
      rw [← hk]
      field_simp
      ring
    have hint : (20000 * correct : Int) = (2 * k - 1) * total := by exact_mod_cast hrat
    have hk1 : 0 < k := by
      by_contra hle
      have : (2 * k - 1) * (total : Int) < 0 := mul_neg_of_neg_of_pos (by omega) (by omega)
      omega
    obtain ⟨j,rfl⟩ : ∃ j : Nat, k = j + 1 := ⟨(k - 1).toNat,by omega⟩
    refine ⟨j,?_⟩
    have hcast : (2 * ((j : Int) + 1) - 1) = 2 * j + 1 := by ring
    rw [hcast] at hint
    exact_mod_cast hint
  · rintro ⟨j,hj⟩
    refine ⟨j + 1,?_⟩
    have hrat : (20000 * correct : Rat) = (2 * j + 1) * total := by exact_mod_cast hj
    have hquot : (correct : Rat) / total = (2 * j + 1) / 20000 := by
      rw [div_eq_div_iff hne (by norm_num)]
      linarith
    rw [hquot]
    push_cast
    ring

/-- Both percentages in hundredths: the second is what the first lacks. -/
private theorem percentages_floor (hpos : 1 ≤ total) (hle : correct ≤ total) :
    round2 ((correct : Rat) / total * 100) + toFixed2 ((1 - (correct : Rat) / total) * 100) =
      (10000 + (⌊(correct : Rat) / total * 100 * 100 + 1/2⌋ + ⌊1 - ((correct : Rat) / total * 100 * 100 + 1/2)⌋ : Int)) / 100 := by
  have hle' : (correct : Rat) / total ≤ 1 := div_le_one_of_le₀ (by exact_mod_cast hle) (Nat.cast_nonneg _)
  have hwrong : (1 - (correct : Rat) / total) * 100 * 100 + 1/2 =
      (1 - ((correct : Rat) / total * 100 * 100 + 1/2)) + (10000 : Int) := by
    push_cast
    ring
  have hnonneg : ¬ (1 - (correct : Rat) / total) * 100 < 0 := by linarith
  rw [round2_of_nonneg (by positivity),toFixed2,if_neg hnonneg,hwrong,Int.floor_add_intCast]
  push_cast
  ring

/-- Groups of any size with any number of right answers occur. -/
private theorem exists_group (hle : correct ≤ total) :
    ∃ records key, (accuracyGroup records key).total = total ∧ (accuracyGroup records key).correct = correct := by
  refine ⟨List.replicate correct ⟨none,some [],some []⟩ ++ List.replicate (total - correct) ⟨none,some [],none⟩,
    (none,some []),?_,?_⟩
  · simp [accuracyGroup]
    omega
  · simp [accuracyGroup,List.countP_replicate,sqlEq]

end Complement

end Thintuit.Client
