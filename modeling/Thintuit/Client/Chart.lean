import Thintuit.Client.Controls

/-! The accuracy charts of `visualization/index.html`, from the table of test records to
the numbers that are drawn. -/
namespace Thintuit.Client
open Server Interaction

/-! The page and its script. -/

def readText : Json → Option (Option PyStr)
  | .str s => some (some s)
  | .null => some none
  | _ => none

def readRow : Json → Option ChartRow
  | .obj fields => do
    let modelId ← fields.lookup (py "model_id") >>= readText
    let correctCategory ← fields.lookup (py "correct_category") >>= readText
    match fields.lookup (py "accuracy_percent") with
    | some (.float (.finite x)) => some ⟨modelId,correctCategory,x⟩
    | _ => none
  | _ => none

/-- `response.json()`, which becomes `chartData.raw`. -/
def chartRows (resp : Response) : Option (List ChartRow) :=
  match resp.content with
  | .json (.arr rows) => rows.mapM readRow
  | _ => none

/-- The values the script tests the type for. The page offers the first three. -/
inductive ChartType where
  | bar | line | radar | pie | doughnut
  deriving DecidableEq

def ChartType.text : ChartType → PyStr
  | .bar => py "bar"
  | .line => py "line"
  | .radar => py "radar"
  | .pie => py "pie"
  | .doughnut => py "doughnut"

/-- `["radar", "pie", "doughnut"].includes(type)`. -/
def ChartType.axisless : ChartType → Bool
  | .radar | .pie | .doughnut => true
  | .bar | .line => false

inductive Axis where
  | x | y
  deriving DecidableEq

def getAxisTitle (axis : Axis) (type : ChartType) (isHorizontal : Bool) : PyStr :=
  match type, isHorizontal, axis with
  | .bar, true, .x => py "Accuracy (%)"
  | .bar, true, .y => py "Category"
  | .bar, false, .x => py "Category"
  | .bar, false, .y => py "Accuracy (%)"
  | .line, _, .x => py "Category"
  | .line, _, .y => py "Accuracy (%)"
  | _, _, _ => []

structure Scale where
  max : Option Nat
  title : PyStr
  deriving DecidableEq

structure Dataset where
  label : Option PyStr
  data : List Rat
  backgroundColor : List PyStr
  borderColor : PyStr
  fill : Bool
  deriving DecidableEq

structure Chart where
  type : ChartType
  labels : List PyStr
  datasets : List Dataset
  indexAxis : Axis
  title : PyStr
  scales : List Scale
  deriving DecidableEq

structure Page where
  html : Html
  raw : List ChartRow
  setting : Setting
  chartTypes : List ChartType
  horizontal : Bool
  colors : PyStr → PyStr

def categoryMap : List (PyStr × PyStr) :=
  [(py "RECYCLABLE",py "Recyclable"),(py "HOUSEHOLD",py "Household Waste"),(py "HAZARDOUS",py "Hazardous Waste"),
    (py "RESIDUAL",py "Residual Waste")]

/-- `categoryMap[cat] || cat`. -/
def categoryLabel (cat : PyStr) : PyStr := (categoryMap.lookup cat).getD cat

def drawnCategories : List PyStr := [py "RECYCLABLE",py "HOUSEHOLD",py "HAZARDOUS",py "RESIDUAL"]

namespace Page
variable (page : Page)

def selectedModels : List (Option PyStr) :=
  firstOccurrences (fun m => isChecked page.html page.raw page.setting (modelBox m)) (page.raw.map ChartRow.modelId)

def selectedCats : List PyStr :=
  drawnCategories.filter (fun cat => page.raw.any (fun d => d.correctCategory = some cat) &&
    isChecked page.html page.raw page.setting (categoryBox (some cat)))

def cell (model : Option PyStr) (cat : PyStr) : Rat :=
  match page.raw.find? (fun d => d.modelId = model && d.correctCategory = some cat) with
  | some item => item.accuracyPercent
  | none => 0

def dataset (type : ChartType) (model : Option PyStr) : Dataset where
  label := model
  data := page.selectedCats.map (page.cell model)
  -- one colour for the dataset, or one for each of its sectors
  backgroundColor := if type = .pie ∨ type = .doughnut then page.selectedCats.map (fun _ => page.colors (templateText model))
    else [page.colors (templateText model)]
  borderColor := page.colors (templateText model)
  fill := type = .radar

def chart (type : ChartType) : Chart where
  type := type
  labels := page.selectedCats.map categoryLabel
  datasets := page.selectedModels.map (page.dataset type)
  indexAxis := if type = .bar ∧ page.horizontal then .y else .x
  title := py "Chart Type: " ++ type.text
  scales := if type.axisless then []
    else [⟨some 100,getAxisTitle .x type page.horizontal⟩,⟨none,getAxisTitle .y type page.horizontal⟩]

def renderCharts : List Chart := page.chartTypes.map page.chart

/-- Each checkbox id resolves to its own checkbox. -/
structure OwnBoxes : Prop where
  model : ∀ m ∈ page.raw.map ChartRow.modelId,
    getElementById page.html page.raw page.setting (modelBox m) = some ⟨modelBox m,some (page.setting.models m)⟩
  category : ∀ c ∈ page.raw.map ChartRow.correctCategory,
    getElementById page.html page.raw page.setting (categoryBox c) = some ⟨categoryBox c,some (page.setting.categories c)⟩

end Page

/-- The box of a model is ticked, as the script finds it. -/
def Page.ModelTicked (page : Page) (model : Option PyStr) : Prop := isChecked page.html page.raw page.setting (modelBox model) = true

def Page.CategoryTicked (page : Page) (cat : PyStr) : Prop :=
  isChecked page.html page.raw page.setting (categoryBox (some cat)) = true

theorem mem_selectedCats_iff (page : Page) (cat : PyStr) :
    cat ∈ page.selectedCats ↔
      cat ∈ drawnCategories ∧ (∃ d ∈ page.raw, d.correctCategory = some cat) ∧ page.CategoryTicked cat := by
  simp [Page.selectedCats,Page.CategoryTicked]

theorem mem_selectedModels_iff_ticked (page : Page) (model : Option PyStr) :
    model ∈ page.selectedModels ↔ (∃ d ∈ page.raw, d.modelId = model) ∧ page.ModelTicked model := by
  rw [Page.selectedModels,mem_firstOccurrences_iff,List.mem_map]
  rfl

/-! What should be drawn, in terms of the records. -/

/-- The accuracy of a model on a category, in percent and rounded half up to two decimals. -/
def accuracyOf (records : List TestRecord) (model : Option PyStr) (cat : PyStr) : Rat :=
  let n := records.countP (fun r => r.modelId = model && r.correctCategory = some cat)
  let k := records.countP (fun r => r.modelId = model && r.correctCategory = some cat && r.mlCategoryFinal = some cat)
  if n = 0 then 0 else (⌊100 * (k : Rat) / n * 100 + 1/2⌋ : Int) / 100

def columns (records : List TestRecord) (setting : Setting) : List PyStr :=
  drawnCategories.filter (fun cat => records.any (fun r => r.correctCategory = some cat) && setting.categories (some cat))

structure DrawnFrom (records : List TestRecord) (page : Page) (chart : Chart) : Prop where
  models_nodup : (chart.datasets.map Dataset.label).Nodup
  models_mem : ∀ m, m ∈ chart.datasets.map Dataset.label ↔
    (∃ r ∈ records, r.modelId = m) ∧ page.setting.models m = true
  models_order : (chart.datasets.map Dataset.label).Pairwise
    (fun a b => (page.raw.map ChartRow.modelId).idxOf a < (page.raw.map ChartRow.modelId).idxOf b)
  labels : chart.labels = (columns records page.setting).map categoryLabel
  cells : ∀ d ∈ chart.datasets, d.data = (columns records page.setting).map (accuracyOf records d.label)
  percentages : ∀ d ∈ chart.datasets, ∀ x ∈ d.data, 0 ≤ x ∧ x ≤ 100

section Proof
variable {page : Page} {collate : PyStr → PyStr → Bool} {records : List TestRecord}

/-- What the script keeps of a row of the query. -/
def chartRow (row : AccuracyRow) : ChartRow := ⟨row.modelId,row.correctCategory,row.accuracyPercent⟩

theorem readRow_dict (row : AccuracyRow) : readRow row.dict = some (chartRow row) := by
  obtain ⟨model,cat,total,correct,percent⟩ := row
  cases model <;> cases cat <;> rfl

theorem mapM_readRow (rows : List AccuracyRow) : (rows.map AccuracyRow.dict).mapM readRow = some (rows.map chartRow) := by
  induction rows with
  | nil => rfl
  | cons row rows ih => simp [List.mapM_cons,readRow_dict,ih]

/-- The rows of the query hold the models and the categories of the records, and no others. -/
private theorem column_mem_iff (hraw : page.raw = (accuracyQuery collate records).map chartRow)
    {column : ChartRow → Option PyStr} {field : TestRecord → Option PyStr}
    (h : ∀ r, column (chartRow (accuracyGroup records r.key)) = field r) (x : Option PyStr) :
    x ∈ page.raw.map column ↔ ∃ r ∈ records, field r = x := by
  simp only [hraw,List.map_map,List.mem_map,Function.comp_apply,mem_accuracyQuery_iff]
  constructor
  · rintro ⟨_,⟨r,hr,rfl⟩,rfl⟩
    exact ⟨r,hr,(h r).symm⟩
  · rintro ⟨r,hr,rfl⟩
    exact ⟨_,⟨r,hr,rfl⟩,h r⟩

private theorem model_mem_iff (hraw : page.raw = (accuracyQuery collate records).map chartRow) (m : Option PyStr) :
    m ∈ page.raw.map ChartRow.modelId ↔ ∃ r ∈ records, r.modelId = m := column_mem_iff hraw (fun _ => rfl) m

private theorem category_mem_iff (hraw : page.raw = (accuracyQuery collate records).map chartRow) (c : Option PyStr) :
    c ∈ page.raw.map ChartRow.correctCategory ↔ ∃ r ∈ records, r.correctCategory = c :=
  column_mem_iff hraw (fun _ => rfl) c

private theorem isChecked_of_own {id : PyStr} {b : Bool} (h : getElementById page.html page.raw page.setting id = some ⟨id,some b⟩) :
    isChecked page.html page.raw page.setting id = b := by
  rw [isChecked,h]
  rfl

theorem mem_selectedModels_iff (hraw : page.raw = (accuracyQuery collate records).map chartRow) (hown : page.OwnBoxes)
    (m : Option PyStr) : m ∈ page.selectedModels ↔ (∃ r ∈ records, r.modelId = m) ∧ page.setting.models m = true := by
  rw [Page.selectedModels,mem_firstOccurrences_iff,← model_mem_iff hraw]
  apply and_congr_right
  intro hm
  rw [isChecked_of_own (hown.model m hm)]

theorem selectedCats_eq (hraw : page.raw = (accuracyQuery collate records).map chartRow) (hown : page.OwnBoxes) :
    page.selectedCats = columns records page.setting := by
  apply List.filter_congr
  intro cat _
  have hpresent : page.raw.any (fun d => d.correctCategory = some cat) = records.any (fun r => r.correctCategory = some cat) := by
    have h := category_mem_iff hraw (some cat)
    rw [List.mem_map] at h
    rw [Bool.eq_iff_iff]
    simpa using h
  rw [hpresent]
  cases hany : records.any (fun r => r.correctCategory = some cat) with
  | false => rfl
  | true =>
    have hmem : some cat ∈ page.raw.map ChartRow.correctCategory := by
      rw [category_mem_iff hraw]
      simpa using hany
    rw [isChecked_of_own (hown.category _ hmem)]

/-- The lookup of a cell finds the group of its model and category, if there is one. -/
private theorem find_group (model : Option PyStr) (cat : PyStr) :
    ((accuracyQuery collate records).map chartRow).find? (fun d => d.modelId = model && d.correctCategory = some cat) =
      if (model,some cat) ∈ records.map TestRecord.key then some (chartRow (accuracyGroup records (model,some cat)))
      else none := by
  have hpred : (fun d : ChartRow => decide (d.modelId = model) && decide (d.correctCategory = some cat)) ∘ chartRow =
      fun row => decide (row.key = (model,some cat)) := by
    funext row
    rw [Function.comp_apply,Bool.eq_iff_iff,Bool.and_eq_true,decide_eq_true_iff,decide_eq_true_iff,decide_eq_true_iff,
      AccuracyRow.key,Prod.mk.injEq]
    rfl
  rw [List.find?_map,hpred]
  split
  · rename_i hmem
    obtain ⟨r,hr,hkey⟩ := List.mem_map.mp hmem
    have hrow : accuracyGroup records (model,some cat) ∈ accuracyQuery collate records := by
      rw [mem_accuracyQuery_iff]
      exact ⟨r,hr,by rw [hkey]⟩
    rw [(find_key_iff AccuracyRow.key (accuracyQuery_keys_nodup collate records) (model,some cat) _).mpr ⟨hrow,rfl⟩]
    rfl
  · rename_i hmem
    rw [Option.map_eq_none_iff,List.find?_eq_none]
    intro row hrow hkey
    obtain ⟨r,hr,rfl⟩ := (mem_accuracyQuery_iff collate records row).mp hrow
    have hkey' : r.key = (model,some cat) := of_decide_eq_true hkey
    exact hmem (List.mem_map.mpr ⟨r,hr,hkey'⟩)

private theorem total_eq (model : Option PyStr) (cat : PyStr) :
    (accuracyGroup records (model,some cat)).total =
      records.countP (fun r => r.modelId = model && r.correctCategory = some cat) := by
  rw [accuracyGroup_total]
  apply List.countP_congr
  intro r _
  simp [TestRecord.key]

/-- Under `correct_category = c` the filter of the query asks whether `ml_category_final` is `c` too. -/
private theorem correct_eq (model : Option PyStr) (cat : PyStr) :
    (accuracyGroup records (model,some cat)).correct =
      records.countP (fun r => r.modelId = model && r.correctCategory = some cat && r.mlCategoryFinal = some cat) := by
  rw [accuracyGroup_correct]
  apply List.countP_congr
  rintro ⟨m,c,final⟩ _
  simp only [TestRecord.key,Bool.and_eq_true,decide_eq_true_eq,Prod.mk.injEq]
  constructor
  · rintro ⟨hsql,rfl,rfl⟩
    cases final with
    | none => cases hsql
    | some f => exact ⟨⟨rfl,rfl⟩,by simpa [sqlEq] using hsql⟩
  · rintro ⟨⟨rfl,rfl⟩,rfl⟩
    exact ⟨by simp [sqlEq],rfl,rfl⟩

theorem accuracyPercent_eq {model : Option PyStr} {cat : PyStr} (hmem : (model,some cat) ∈ records.map TestRecord.key) :
    (accuracyGroup records (model,some cat)).accuracyPercent = accuracyOf records model cat := by
  obtain ⟨r,hr,hkey⟩ := List.mem_map.mp hmem
  have hpos := accuracyGroup_total_pos hr
  rw [hkey] at hpos
  have hpercent : (accuracyGroup records (model,some cat)).accuracyPercent =
      round2 (((accuracyGroup records (model,some cat)).correct : Rat) / (accuracyGroup records (model,some cat)).total * 100) :=
    rfl
  rw [hpercent,round2_of_nonneg (by positivity)]
  rw [total_eq] at hpos
  simp only [accuracyOf,total_eq,correct_eq,if_neg hpos.ne']
  congr 4
  ring

theorem cell_eq (hraw : page.raw = (accuracyQuery collate records).map chartRow) (model : Option PyStr) (cat : PyStr) :
    page.cell model cat = accuracyOf records model cat := by
  rw [Page.cell,hraw,find_group]
  by_cases hmem : (model,some cat) ∈ records.map TestRecord.key
  · rw [if_pos hmem]
    exact accuracyPercent_eq hmem
  · rw [if_neg hmem]
    have hnone : records.countP (fun r => r.modelId = model && r.correctCategory = some cat) = 0 := by
      rw [List.countP_eq_zero]
      intro r hr hkey
      exact hmem (List.mem_map.mpr ⟨r,hr,by simpa [TestRecord.key] using hkey⟩)
    simp [accuracyOf,hnone]

theorem cell_percentage (hraw : page.raw = (accuracyQuery collate records).map chartRow) (model : Option PyStr) (cat : PyStr) :
    0 ≤ page.cell model cat ∧ page.cell model cat ≤ 100 := by
  rw [Page.cell,hraw,find_group]
  by_cases hmem : (model,some cat) ∈ records.map TestRecord.key
  · rw [if_pos hmem]
    exact accuracyGroup_percentage _
  · rw [if_neg hmem]
    norm_num

theorem chart_drawnFrom (hraw : page.raw = (accuracyQuery collate records).map chartRow) (hown : page.OwnBoxes)
    (type : ChartType) : DrawnFrom records page (page.chart type) := by
  have hlabels : (page.chart type).datasets.map Dataset.label = page.selectedModels := by
    simp only [Page.chart,List.map_map]
    exact List.map_id _
  have hcats := selectedCats_eq hraw hown
  refine ⟨?_,?_,?_,?_,?_,?_⟩
  · rw [hlabels]
    exact nodup_firstOccurrences _ (page.raw.map ChartRow.modelId)
  · intro m
    rw [hlabels]
    exact mem_selectedModels_iff hraw hown m
  · rw [hlabels]
    exact firstOccurrences_pairwise _ (page.raw.map ChartRow.modelId)
  · rw [← hcats]
    rfl
  · intro d hd
    obtain ⟨model,-,rfl⟩ := List.mem_map.mp hd
    rw [← hcats]
    exact List.map_congr_left (fun cat _ => cell_eq hraw model cat)
  · intro d hd x hx
    obtain ⟨model,-,rfl⟩ := List.mem_map.mp hd
    obtain ⟨cat,-,rfl⟩ := List.mem_map.mp hx
    exact cell_percentage hraw model cat

/-- Where all names stand for themselves, ids clash only where a missing model stands beside one
called `null`, or a model is called `filters` as the list of models is; likewise for the categories. -/
theorem ownBoxes_of_records (hraw : page.raw = (accuracyQuery collate records).map chartRow)
    (hnames : ∀ r ∈ records, literalName r.modelId = true ∧ literalName r.correctCategory = true)
    (hmodels : ∀ r ∈ records, ∀ r' ∈ records, templateText r.modelId = templateText r'.modelId → r.modelId = r'.modelId)
    (hfilters : ∀ r ∈ records, templateText r.modelId ≠ py "filters")
    (hcats : ∀ r ∈ records, ∀ r' ∈ records, templateText r.correctCategory = templateText r'.correctCategory →
      r.correctCategory = r'.correctCategory) : page.OwnBoxes := by
  have hliteral : LiteralNames page.raw := by
    intro row hrow
    obtain ⟨r,hr,hmodel⟩ := (model_mem_iff hraw _).mp (List.mem_map_of_mem hrow)
    obtain ⟨r',hr',hcat⟩ := (category_mem_iff hraw _).mp (List.mem_map_of_mem hrow)
    exact ⟨hmodel ▸ (hnames r hr).1,hcat ▸ (hnames r' hr').2⟩
  refine ⟨?_,?_⟩
  · intro m hm
    obtain ⟨r,hr,rfl⟩ := (model_mem_iff hraw m).mp hm
    rw [getElementById_modelBox _ hliteral,if_neg (hfilters r hr),find_namesake hm]
    · rfl
    · intro b hb hsame
      obtain ⟨r',hr',rfl⟩ := (model_mem_iff hraw b).mp hb
      exact hmodels r' hr' r hr hsame
  · intro c hc
    obtain ⟨r,hr,rfl⟩ := (category_mem_iff hraw c).mp hc
    rw [getElementById_categoryBox _ hliteral,find_namesake hc]
    · rfl
    · intro b hb hsame
      obtain ⟨r',hr',rfl⟩ := (category_mem_iff hraw b).mp hb
      exact hcats r' hr' r hr hsame

/-- The endpoint answers the rows of the query. -/
theorem run_getModelAccuracy {rt : Runtime} {request : Request} {salt : Bytes} {c : Nat → Choice} (s : Store)
    (hc : ∀ k, (c k).fault = none) (hend : request.endpoint = some .getModelAccuracy) :
    ((serve rt request salt).run (exec rt) c s).1 =
      ok (.arr ((accuracyQuery rt.collate s.testrecordsdetails2022).map AccuracyRow.dict)) := by
  rw [serve_of_endpoint hend,handle,respond_getModelAccuracy,Program.run_call,acquire_healthy rt (hc 0)]
  dsimp only
  rw [Program.run_call]
  simp only [Nat.zero_add]
  rw [fetchAccuracy_healthy rt (hc 1)]
  rfl

end Proof

/-- The charts are right. The endpoint answers with rows the page can read, taken from groups that
are not empty, and for every setting of the checkboxes every chart drawn from these rows shows the
checked models and categories with their accuracies. -/
theorem charts_correct (rt : Runtime) (request : Request) (salt : Bytes) (c : Nat → Choice) (s : Store)
    (hc : ∀ k, (c k).fault = none) (hend : request.endpoint = some .getModelAccuracy) :
    (∀ row ∈ accuracyQuery rt.collate s.testrecordsdetails2022, row.total ≠ 0) ∧
    ∃ raw, chartRows ((serve rt request salt).run (exec rt) c s).1 = some raw ∧
      ∀ page : Page, page.raw = raw → page.OwnBoxes →
        page.renderCharts.map Chart.type = page.chartTypes ∧
        ∀ chart ∈ page.renderCharts, DrawnFrom s.testrecordsdetails2022 page chart := by
  refine ⟨?_,(accuracyQuery rt.collate s.testrecordsdetails2022).map chartRow,?_,?_⟩
  · intro row hrow
    obtain ⟨r,hr,rfl⟩ := (mem_accuracyQuery_iff _ _ row).mp hrow
    exact (accuracyGroup_total_pos hr).ne'
  · rw [run_getModelAccuracy s hc hend]
    exact mapM_readRow _
  · intro page hraw hown
    refine ⟨?_,?_⟩
    · rw [Page.renderCharts,List.map_map]
      exact List.map_id _
    · intro chart hchart
      obtain ⟨type,-,rfl⟩ := List.mem_map.mp hchart
      exact chart_drawnFrom hraw hown type

open Server.Reference

/-- Three answers of one model on recyclables, one of them right and one missing, and one answer of
a model without an id. -/
def sampleStore : Store where
  users := store.users
  testrecordsdetails2022 :=
    [⟨some (py "m1"),some (py "RECYCLABLE"),some (py "RECYCLABLE")⟩,
      ⟨some (py "m1"),some (py "RECYCLABLE"),some (py "HAZARDOUS")⟩,
      ⟨some (py "m1"),some (py "RECYCLABLE"),none⟩,⟨none,some (py "RESIDUAL"),some (py "RESIDUAL")⟩]

def samplePage : Page where
  html := plainHtml
  raw := (accuracyQuery reference.collate sampleStore.testrecordsdetails2022).map chartRow
  setting := ⟨fun _ => true,fun c => c = some (py "RECYCLABLE")⟩
  chartTypes := [.bar,.radar]
  horizontal := true
  colors := fun _ => py "rgba(0,0,0,0.6)"

theorem samplePage_ownBoxes : samplePage.OwnBoxes :=
  ownBoxes_of_records rfl (by decide +kernel) (by decide +kernel) (by decide +kernel) (by decide +kernel)

def accuracyRequest : Request := ⟨.get,py "/api/accuracy",[],[],none,.ok []⟩

/-- The one third of right answers, as both charts show it. -/
theorem charts_correct_sample :
    (∀ chart ∈ samplePage.renderCharts, DrawnFrom sampleStore.testrecordsdetails2022 samplePage chart) ∧
    accuracyOf sampleStore.testrecordsdetails2022 (some (py "m1")) (py "RECYCLABLE") = 3333 / 100 := by
  obtain ⟨-,raw,hraw,hdrawn⟩ := charts_correct reference accuracyRequest [] (fun _ => ⟨none,0,0⟩) sampleStore
    (fun _ => rfl) rfl
  rw [run_getModelAccuracy sampleStore (fun _ => rfl) rfl] at hraw
  obtain rfl := Option.some.inj ((mapM_readRow _).symm.trans hraw)
  exact ⟨(hdrawn samplePage rfl samplePage_ownBoxes).2,by decide +kernel⟩

end Thintuit.Client
