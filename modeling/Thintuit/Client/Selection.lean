import Thintuit.Client.Chart

/-! Whether the charts draw what is ticked. The boxes are made from the rows; the drawing goes
by its own list of categories and finds the boxes by their ids. -/
namespace Thintuit.Client
open Server

/-- The category that the label of a column stands for. -/
def labelled (label : PyStr) : PyStr := ((categoryMap.find? (fun e => e.2 = label)).map Prod.fst).getD label

theorem labelled_categoryLabel : ∀ cat ∈ drawnCategories, labelled (categoryLabel cat) = cat := by decide

/-- What a chart draws: a value for each dataset and label. -/
def Chart.points (chart : Chart) : List (Option PyStr × Option PyStr × Rat) :=
  chart.datasets.flatMap (fun d => (chart.labels.zip d.data).map (fun (label,x) => (d.label,some (labelled label),x)))

def ChartRow.key (row : ChartRow) : Option PyStr × Option PyStr := (row.modelId,row.correctCategory)

namespace Page
variable (page : Page)

/-- Both boxes of the row are ticked. -/
def Ticked (row : ChartRow) : Prop :=
  page.setting.models row.modelId = true ∧ page.setting.categories row.correctCategory = true

/-- Every ticked row is drawn once, under its model and its category, and nothing is drawn for a
model or a category that is not ticked. -/
structure DrawnAsTicked (chart : Chart) : Prop where
  rows : ∀ row ∈ page.raw, page.Ticked row →
    chart.points.filter (fun p => (p.1,p.2.1) = row.key) = [(row.modelId,row.correctCategory,row.accuracyPercent)]
  models : ∀ d ∈ chart.datasets, page.setting.models d.label = true
  categories : ∀ label ∈ chart.labels, page.setting.categories (some (labelled label)) = true

theorem points_chart (type : ChartType) :
    (page.chart type).points =
      (page.selectedModels.product page.selectedCats).map (fun (model,cat) => (model,some cat,page.cell model cat)) := by
  have hzip : ∀ model, (page.chart type).labels.zip (page.dataset type model).data =
      page.selectedCats.map (fun cat => (categoryLabel cat,page.cell model cat)) := fun model => List.zip_map'
  have hdatasets : (page.chart type).datasets = page.selectedModels.map (page.dataset type) := rfl
  rw [Chart.points,hdatasets,List.flatMap_map,List.product,List.map_flatMap]
  refine List.flatMap_congr (fun model _ => ?_)
  rw [hzip,List.map_map,List.map_map]
  refine List.map_congr_left (fun cat hcat => ?_)
  simp only [Function.comp_apply,labelled_categoryLabel cat (List.mem_of_mem_filter hcat)]
  rfl

end Page

/-- Of values that are all different, one is kept by a test that only it passes. -/
private theorem filter_map_eq_singleton {α β : Type} {f : α → β} {p : β → Bool} {xs : List α} {a : α} (hnodup : xs.Nodup)
    (ha : a ∈ xs) (hp : ∀ x ∈ xs, p (f x) = true ↔ x = a) : (xs.map f).filter p = [f a] := by
  induction xs with
  | nil => cases ha
  | cons x xs ih =>
    rw [List.nodup_cons] at hnodup
    rw [List.map_cons,List.filter_cons]
    by_cases hx : x = a
    · subst hx
      have hrest : (xs.map f).filter p = [] := by
        rw [List.filter_eq_nil_iff]
        intro b hb
        obtain ⟨y,hy,rfl⟩ := List.mem_map.mp hb
        rw [hp y (List.mem_cons_of_mem _ hy)]
        rintro rfl
        exact hnodup.1 hy
      rw [if_pos ((hp x List.mem_cons_self).mpr rfl),hrest]
    · rw [if_neg (fun h => hx ((hp x List.mem_cons_self).mp h))]
      exact ih hnodup.2 ((List.mem_cons.mp ha).resolve_left (Ne.symm hx)) (fun y hy => hp y (List.mem_cons_of_mem _ hy))

section Selection
variable {page : Page}

private theorem templateText_eq_filters_iff (m : Option PyStr) : templateText m = py "filters" ↔ m = some (py "filters") := by
  cases m with
  | none => decide
  | some s => simp [templateText]

theorem modelTicked_iff (hnames : LiteralNames page.raw) {m first : Option PyStr}
    (hfirst : namesake (page.raw.map ChartRow.modelId) m = some first) :
    page.ModelTicked m ↔ m ≠ some (py "filters") ∧ page.setting.models first = true := by
  rw [Page.ModelTicked,isChecked,getElementById_modelBox _ hnames,hfirst,ne_eq,← templateText_eq_filters_iff]
  by_cases h : templateText m = py "filters"
  · simp [h]
  · simp [h]

theorem categoryTicked_iff (hnames : LiteralNames page.raw) {cat : PyStr} (hcat : cat ∈ drawnCategories)
    (hmem : some cat ∈ page.raw.map ChartRow.correctCategory) :
    page.CategoryTicked cat ↔ page.setting.categories (some cat) = true := by
  have hnull : ∀ cat ∈ drawnCategories, cat ≠ py "null" := by decide
  have halone : ∀ y ∈ page.raw.map ChartRow.correctCategory, templateText y = templateText (some cat) → y = some cat := by
    rintro (_ | s) - hsame
    · exact absurd hsame.symm (hnull cat hcat)
    · exact congrArg some hsame
  rw [Page.CategoryTicked,isChecked,getElementById_categoryBox _ hnames,find_namesake hmem halone]
  rfl

theorem exists_namesake {xs : List (Option PyStr)} {x : Option PyStr} (hx : x ∈ xs) : ∃ first, namesake xs x = some first :=
  Option.isSome_iff_exists.mp (List.find?_isSome.mpr ⟨x,hx,decide_eq_true rfl⟩)

/-- The first that prints like the model called `filters` is that model. -/
private theorem namesake_filters {xs : List (Option PyStr)} {first : Option PyStr}
    (h : namesake xs (some (py "filters")) = some first) : first = some (py "filters") :=
  (templateText_eq_filters_iff first).mp (namesake_eq_some h).2

private theorem cell_of_row (hkeys : (page.raw.map ChartRow.key).Nodup) {row : ChartRow} (hrow : row ∈ page.raw) {cat : PyStr}
    (hcat : row.correctCategory = some cat) : page.cell row.modelId cat = row.accuracyPercent := by
  have hpred : (fun d : ChartRow => decide (d.modelId = row.modelId) && decide (d.correctCategory = some cat)) =
      fun d => decide (d.key = row.key) := by
    funext d
    rw [Bool.eq_iff_iff]
    simp [ChartRow.key,hcat]
  rw [Page.cell,hpred,(find_key_iff ChartRow.key hkeys row.key row).mpr ⟨hrow,rfl⟩]

/-- A ticked row that is drawn has a dataset and a column. -/
private theorem selected_of_drawn {type : ChartType} (h : page.DrawnAsTicked (page.chart type)) {row : ChartRow}
    (hrow : row ∈ page.raw) (hticked : page.Ticked row) :
    row.modelId ∈ page.selectedModels ∧ ∃ cat ∈ page.selectedCats, row.correctCategory = some cat := by
  have hpoint : (row.modelId,row.correctCategory,row.accuracyPercent) ∈ (page.chart type).points := by
    apply List.mem_of_mem_filter (p := fun p => (p.1,p.2.1) = row.key)
    rw [h.rows row hrow hticked]
    exact List.mem_singleton_self _
  rw [Page.points_chart] at hpoint
  obtain ⟨⟨model,cat⟩,hpair,heq⟩ := List.mem_map.mp hpoint
  obtain ⟨hmodel,hcat⟩ := List.mem_product.mp hpair
  simp only [Prod.mk.injEq] at heq
  exact ⟨heq.1 ▸ hmodel,cat,hcat,heq.2.1.symm⟩

/-- A row with a dataset and a column is drawn there and nowhere else. -/
private theorem row_drawn_once (hkeys : (page.raw.map ChartRow.key).Nodup) (type : ChartType) {row : ChartRow} {cat : PyStr}
    (hrow : row ∈ page.raw) (hcat : row.correctCategory = some cat) (hmodel : row.modelId ∈ page.selectedModels)
    (hcolumn : cat ∈ page.selectedCats) :
    (page.chart type).points.filter (fun p => (p.1,p.2.1) = row.key) =
      [(row.modelId,row.correctCategory,row.accuracyPercent)] := by
  have hnodup : (page.selectedModels.product page.selectedCats).Nodup :=
    (nodup_firstOccurrences _ _).product ((by decide : drawnCategories.Nodup).filter _)
  rw [Page.points_chart,filter_map_eq_singleton hnodup (List.mem_product.mpr ⟨hmodel,hcolumn⟩)]
  · dsimp only
    rw [cell_of_row hkeys hrow hcat,hcat]
  · intro x _
    simp [ChartRow.key,hcat,Prod.ext_iff]

end Selection

section Conditions
variable {page : Page}

/-- The row is drawn if its boxes are ticked, and only if: its category has a column, and the boxes that
are found under the ids of its model and its category are ticked if its own are, and the other way
round. -/
structure Page.Answered (page : Page) (row : ChartRow) : Prop where
  drawn : page.Ticked row →
    (∃ cat ∈ drawnCategories, row.correctCategory = some cat ∧ page.CategoryTicked cat) ∧ page.ModelTicked row.modelId
  model : page.ModelTicked row.modelId → page.setting.models row.modelId = true
  category : ∀ cat ∈ drawnCategories, row.correctCategory = some cat → page.CategoryTicked cat →
    page.setting.categories row.correctCategory = true

/-- The same for names that stand for themselves: the box found is that of the first model written
alike, unless the model is called as the list of models is. -/
structure Page.AnsweredLiterally (page : Page) (row : ChartRow) : Prop where
  drawn : page.Ticked row → (∃ cat ∈ drawnCategories, row.correctCategory = some cat) ∧ row.modelId ≠ some (py "filters")
  first : ∀ first, namesake (page.raw.map ChartRow.modelId) row.modelId = some first →
    (page.Ticked row → page.setting.models first = true) ∧
    (page.setting.models first = true → page.setting.models row.modelId = true)

theorem answered_iff_literally (hnames : LiteralNames page.raw) {row : ChartRow} (hrow : row ∈ page.raw) :
    page.Answered row ↔ page.AnsweredLiterally row := by
  obtain ⟨first,hfirst⟩ := exists_namesake (List.mem_map_of_mem hrow : row.modelId ∈ page.raw.map ChartRow.modelId)
  have hmodel := modelTicked_iff hnames hfirst
  have hcategory : ∀ cat ∈ drawnCategories, row.correctCategory = some cat →
      (page.CategoryTicked cat ↔ page.setting.categories (some cat) = true) := fun cat hcat heq =>
    categoryTicked_iff hnames hcat (heq ▸ List.mem_map_of_mem hrow)
  constructor
  · intro h
    refine ⟨fun hticked => ?_,fun first' hfirst' => ?_⟩
    · obtain ⟨⟨cat,hcat,heq,-⟩,hbox⟩ := h.drawn hticked
      exact ⟨⟨cat,hcat,heq⟩,(hmodel.mp hbox).1⟩
    · obtain rfl := Option.some.inj (hfirst.symm.trans hfirst')
      refine ⟨fun hticked => (hmodel.mp (h.drawn hticked).2).2,fun htick => ?_⟩
      by_cases hfilters : row.modelId = some (py "filters")
      · rw [hfilters] at hfirst ⊢
        rwa [← namesake_filters hfirst]
      · exact h.model (hmodel.mpr ⟨hfilters,htick⟩)
  · intro h
    obtain ⟨hticks,hback⟩ := h.first first hfirst
    refine ⟨fun hticked => ?_,fun hbox => hback (hmodel.mp hbox).2,fun cat hcat heq hbox => ?_⟩
    · obtain ⟨⟨cat,hcat,heq⟩,hfilters⟩ := h.drawn hticked
      exact ⟨⟨cat,hcat,heq,(hcategory cat hcat heq).mpr (heq ▸ hticked.2)⟩,hmodel.mpr ⟨hfilters,hticks hticked⟩⟩
    · rw [heq]
      exact (hcategory cat hcat heq).mp hbox

end Conditions

/-- A chart draws what is ticked just if every ticked row has a category with a column, and under the
ids of its model and its category the script finds boxes that are ticked just if its own are. Where
all names stand for themselves, this comes down to the models called `filters` and to those
that are written alike. -/
theorem drawnAsTicked_iff {page : Page} {chart : Chart} (hkeys : (page.raw.map ChartRow.key).Nodup)
    (hchart : chart ∈ page.renderCharts) :
    (page.DrawnAsTicked chart ↔ ∀ row ∈ page.raw, page.Answered row) ∧
      (LiteralNames page.raw → (page.DrawnAsTicked chart ↔ ∀ row ∈ page.raw, page.AnsweredLiterally row)) := by
  obtain ⟨type,-,rfl⟩ := List.mem_map.mp hchart
  have hiff : page.DrawnAsTicked (page.chart type) ↔ ∀ row ∈ page.raw, page.Answered row := by
    constructor
    · intro h row hrow
      refine ⟨fun hticked => ?_,fun hbox => ?_,fun cat hcat heq hbox => ?_⟩
      · obtain ⟨hmodel,cat,hcat,heq⟩ := selected_of_drawn h hrow hticked
        obtain ⟨hdrawn,-,hbox⟩ := (mem_selectedCats_iff page cat).mp hcat
        exact ⟨⟨cat,hdrawn,heq,hbox⟩,((mem_selectedModels_iff_ticked page _).mp hmodel).2⟩
      · have hselected := (mem_selectedModels_iff_ticked page _).mpr ⟨⟨row,hrow,rfl⟩,hbox⟩
        exact h.models (page.dataset type row.modelId) (List.mem_map_of_mem hselected)
      · have hselected := (mem_selectedCats_iff page cat).mpr ⟨hcat,⟨row,hrow,heq⟩,hbox⟩
        have hlabel := h.categories (categoryLabel cat) (List.mem_map_of_mem hselected)
        rwa [labelled_categoryLabel cat hcat,← heq] at hlabel
    · intro h
      refine ⟨fun row hrow hticked => ?_,fun d hd => ?_,fun label hlabel => ?_⟩
      · obtain ⟨⟨cat,hcat,heq,hbox⟩,hbox'⟩ := (h row hrow).drawn hticked
        exact row_drawn_once hkeys type hrow heq ((mem_selectedModels_iff_ticked page _).mpr ⟨⟨row,hrow,rfl⟩,hbox'⟩)
          ((mem_selectedCats_iff page cat).mpr ⟨hcat,⟨row,hrow,heq⟩,hbox⟩)
      · obtain ⟨model,hmodel,rfl⟩ := List.mem_map.mp hd
        obtain ⟨⟨row,hrow,rfl⟩,hbox⟩ := (mem_selectedModels_iff_ticked page model).mp hmodel
        exact (h row hrow).model hbox
      · obtain ⟨cat,hcat,rfl⟩ := List.mem_map.mp hlabel
        obtain ⟨hdrawn,⟨row,hrow,heq⟩,hbox⟩ := (mem_selectedCats_iff page cat).mp hcat
        rw [labelled_categoryLabel cat hdrawn,← heq]
        exact (h row hrow).category cat hdrawn heq hbox
  refine ⟨hiff,fun hnames => hiff.trans ?_⟩
  exact forall_congr' (fun row => ⟨fun h hrow => (answered_iff_literally hnames hrow).mp (h hrow),
    fun h hrow => (answered_iff_literally hnames hrow).mpr (h hrow)⟩)

/-- Two rows of one model, one of their categories not ticked. -/
def tickedPage : Page where
  html := plainHtml
  raw := [⟨some (py "m1"),some (py "HAZARDOUS"),100⟩,⟨some (py "m1"),some (py "RECYCLABLE"),50⟩]
  setting := ⟨fun _ => true,fun c => c = some (py "RECYCLABLE")⟩
  chartTypes := [.bar]
  horizontal := true
  colors := fun _ => py "rgba(0,0,0,0.6)"

theorem tickedPage_drawn : tickedPage.DrawnAsTicked (tickedPage.chart .bar) ∧
    (tickedPage.chart .bar).points = [(some (py "m1"),some (py "RECYCLABLE"),50)] := by
  have hnames : LiteralNames tickedPage.raw := by
    unfold LiteralNames
    decide +kernel
  refine ⟨((drawnAsTicked_iff (by decide) (List.mem_singleton_self _)).2 hnames).mpr ?_,by decide +kernel⟩
  intro row hrow
  simp only [tickedPage,List.mem_cons,List.not_mem_nil,or_false] at hrow
  rcases hrow with rfl | rfl
  · exact ⟨fun h => absurd h.2 (by decide),fun _ _ => ⟨fun _ => rfl,fun _ => rfl⟩⟩
  · exact ⟨fun _ => ⟨⟨py "RECYCLABLE",by decide,rfl⟩,by decide⟩,fun _ _ => ⟨fun _ => rfl,fun _ => rfl⟩⟩

/-- The rows of `testmain.py`, with every box ticked. -/
def testPage : Page where
  html := plainHtml
  raw := [⟨some (py "ModelA"),some (py "可回收物"),183 / 2⟩,⟨some (py "ModelA"),some (py "厨余垃圾"),87⟩]
  setting := ⟨fun _ => true,fun _ => true⟩
  chartTypes := [.bar]
  horizontal := true
  colors := fun _ => py "rgba(0,0,0,0.6)"

/-- Both rows have boxes of their own, and the chart has no column for either. -/
theorem test_rows_dropped : (testPage.raw.map ChartRow.key).Nodup ∧ testPage.chart .bar ∈ testPage.renderCharts ∧
    (∀ row ∈ testPage.raw, testPage.Ticked row) ∧ (testPage.chart .bar).labels = [] ∧
    ¬ testPage.DrawnAsTicked (testPage.chart .bar) := by
  refine ⟨by decide +kernel,List.mem_singleton_self _,fun _ _ => ⟨rfl,rfl⟩,by decide +kernel,fun h => ?_⟩
  exact absurd (h.rows _ List.mem_cons_self ⟨rfl,rfl⟩) (by decide +kernel)

end Thintuit.Client
