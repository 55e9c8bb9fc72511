import Thintuit.Client.Purity

/-! The chart objects behind the views of `visualization/index.html`: what each action creates
and what it destroys, and when an object outlives its canvas. -/
namespace Thintuit.Client
open Server

inductive Drawing where
  | chart (c : Chart)
  | purity (c : PurityChart)
  | purity3D (c : PurityChart3D)

/-- An instance of `Chart`, not of echarts. -/
def Drawing.isChart : Drawing → Bool
  | .chart _ | .purity _ => true
  | .purity3D _ => false

/-- A chart object and the number of the canvas or div that it was created on. -/
structure ChartObject where
  node : Nat
  drawing : Drawing

/-- The page with its container, `chartData.charts`, the objects that are alive, and the number of
the next element. -/
structure View where
  page : MeasuredPage
  container : List Nat
  charts : List Nat
  live : List ChartObject
  fresh : Nat

/-- What the user sets before an action. -/
structure Controls where
  setting : Setting
  chartTypes : List ChartType
  colors : PyStr → PyStr

inductive ViewAction where
  | renderCharts | toggleOrientation | renderPurityChart | render3DPurityChart
  deriving DecidableEq

def MeasuredPage.set (page : MeasuredPage) (controls : Controls) : MeasuredPage :=
  { page with setting := controls.setting, chartTypes := controls.chartTypes, colors := controls.colors }

/-- `chartData.horizontal = !chartData.horizontal`. -/
def MeasuredPage.flip (page : MeasuredPage) : MeasuredPage := { page with horizontal := !page.horizontal }

namespace View

def start (page : MeasuredPage) : View := ⟨page,[],[],[],0⟩

variable (v : View)

/-- `chartData.charts.forEach(chart => chart.destroy()); chartData.charts = []`. -/
def destroyCharts : View := { v with live := v.live.filter (fun o => o.node ∉ v.charts), charts := [] }

/-- `container.innerHTML = ""`. -/
def clearContainer : View := { v with container := [] }

/-- A new canvas, a `Chart` on it, and the `Chart` into `chartData.charts`. -/
def newChart (drawing : Drawing) : View :=
  { v with container := v.container ++ [v.fresh], charts := v.charts ++ [v.fresh],
           live := v.live ++ [⟨v.fresh,drawing⟩], fresh := v.fresh + 1 }

/-- A new div and `echarts.init` on it, which nothing keeps. -/
def initECharts (drawing : Drawing) : View :=
  { v with container := v.container ++ [v.fresh], live := v.live ++ [⟨v.fresh,drawing⟩], fresh := v.fresh + 1 }

def renderCharts : View :=
  (v.page.renderCharts.map Drawing.chart).foldl newChart v.destroyCharts.clearContainer

def toggleOrientation : View := renderCharts { v with page := v.page.flip }

def renderPurityChart : View := v.destroyCharts.clearContainer.newChart (.purity v.page.renderPurityChart)

def render3DPurityChart : View := v.clearContainer.initECharts (.purity3D v.page.render3DPurityChart)

def setControls (controls : Controls) : View := { v with page := v.page.set controls }

def act (controls : Controls) : ViewAction → View
  | .renderCharts => (v.setControls controls).renderCharts
  | .toggleOrientation => (v.setControls controls).toggleOrientation
  | .renderPurityChart => (v.setControls controls).renderPurityChart
  | .render3DPurityChart => (v.setControls controls).render3DPurityChart

def run (steps : List (Controls × ViewAction)) : View := steps.foldl (fun v s => v.act s.1 s.2) v

/-- The objects alive are those with a canvas or div in the container, and `chartData.charts`
lists the instances of `Chart` among them. -/
structure Tidy : Prop where
  live : ∀ n, n ∈ v.live.map ChartObject.node ↔ n ∈ v.container
  charts : ∀ n, n ∈ v.charts ↔ ∃ o ∈ v.live, o.node = n ∧ o.drawing.isChart = true

end View

/-! What an action does. -/

/-- The drawings on consecutive elements. -/
def objectsFrom (start : Nat) (drawings : List Drawing) : List ChartObject :=
  (drawings.zipIdx start).map (fun (d,n) => ⟨n,d⟩)

theorem nodes_objectsFrom (start : Nat) (drawings : List Drawing) :
    (objectsFrom start drawings).map ChartObject.node = List.range' start drawings.length := by
  rw [objectsFrom,List.map_map,← List.zipIdx_map_snd]
  rfl

theorem foldl_newChart (drawings : List Drawing) (v : View) :
    drawings.foldl View.newChart v =
      { v with container := v.container ++ List.range' v.fresh drawings.length,
               charts := v.charts ++ List.range' v.fresh drawings.length,
               live := v.live ++ objectsFrom v.fresh drawings, fresh := v.fresh + drawings.length } := by
  induction drawings generalizing v with
  | nil => simp [objectsFrom]
  | cons d ds ih =>
    rw [List.foldl_cons,ih]
    simp [View.newChart,objectsFrom,List.range'_succ]
    omega

/-- The action is to draw the charts of all ticked types, and no type is ticked. -/
def Blank (controls : Controls) (action : ViewAction) : Prop :=
  controls.chartTypes = [] ∧ (action = .renderCharts ∨ action = .toggleOrientation)

/-- The old charts are gone, and the drawings stand alone in the container. -/
structure Redrawn (v v' : View) (drawings : List Drawing) : Prop where
  container : v'.container = List.range' v.fresh drawings.length
  charts : v'.charts = List.range' v.fresh drawings.length
  live : v'.live = v.live.filter (fun o => o.node ∉ v.charts) ++ objectsFrom v.fresh drawings
  fresh : v'.fresh = v.fresh + drawings.length

section Act
variable (v : View) (controls : Controls)

theorem redrawn_renderCharts (page : MeasuredPage) :
    Redrawn v (View.renderCharts { v with page := page }) (page.renderCharts.map Drawing.chart) := by
  rw [View.renderCharts,foldl_newChart]
  exact ⟨rfl,rfl,rfl,rfl⟩

/-- Three of the actions redraw, and all they draw are instances of `Chart`. -/
theorem act_redraws {action : ViewAction} (h : action ≠ .render3DPurityChart) :
    ∃ drawings, (∀ d ∈ drawings, d.isChart = true) ∧ (drawings = [] ↔ Blank controls action) ∧
      Redrawn v (v.act controls action) drawings := by
  have hcharts : ∀ charts : List Chart, ∀ d ∈ charts.map Drawing.chart, d.isChart = true := by
    intro charts d hd
    obtain ⟨c,-,rfl⟩ := List.mem_map.mp hd
    rfl
  have hblank : ∀ page : Page, page.renderCharts.map Drawing.chart = [] ↔ page.chartTypes = [] := by
    intro page
    rw [List.map_eq_nil_iff,Page.renderCharts,List.map_eq_nil_iff]
  cases action with
  | renderCharts =>
    refine ⟨_,hcharts _,(hblank (v.page.set controls).toPage).trans ?_,redrawn_renderCharts v (v.page.set controls)⟩
    exact ⟨fun ht => ⟨ht,.inl rfl⟩,fun hb => hb.1⟩
  | toggleOrientation =>
    refine ⟨_,hcharts _,(hblank (v.page.set controls).flip.toPage).trans ?_,
      redrawn_renderCharts v (v.page.set controls).flip⟩
    exact ⟨fun ht => ⟨ht,.inr rfl⟩,fun hb => hb.1⟩
  | renderPurityChart =>
    refine ⟨[.purity (v.setControls controls).page.renderPurityChart],?_,?_,⟨rfl,rfl,rfl,rfl⟩⟩
    · intro d hd
      rw [List.mem_singleton.mp hd]
      rfl
    · refine iff_of_false (by simp) ?_
      rintro ⟨-,hb | hb⟩ <;> cases hb
  | render3DPurityChart => exact absurd rfl h

/-- Objects stand on elements that were there before. -/
def View.Numbered : Prop := ∀ o ∈ v.live, o.node < v.fresh

variable {v}

theorem mem_nodes_objectsFrom {start : Nat} {drawings : List Drawing} {o : ChartObject}
    (ho : o ∈ objectsFrom start drawings) : start ≤ o.node ∧ o.node < start + drawings.length := by
  have hnode : o.node ∈ List.range' start drawings.length := by
    rw [← nodes_objectsFrom]
    exact List.mem_map_of_mem ho
  simpa using hnode

theorem numbered_act (h : v.Numbered) (action : ViewAction) : (v.act controls action).Numbered := by
  by_cases h3D : action = .render3DPurityChart
  · subst h3D
    intro o ho
    rcases List.mem_append.mp ho with ho | ho
    · exact (h o ho).trans (Nat.lt_succ_self _)
    · rw [List.mem_singleton.mp ho]
      exact Nat.lt_succ_self _
  · obtain ⟨drawings,-,-,hre⟩ := act_redraws v controls h3D
    intro o ho
    rw [hre.live,List.mem_append] at ho
    rw [hre.fresh]
    rcases ho with ho | ho
    · have := h o (List.mem_of_mem_filter ho)
      omega
    · exact (mem_nodes_objectsFrom ho).2

/-- An object that the script does not keep outlives its element with the next action, and so does
every object if that action is the view in three dimensions. -/
theorem not_tidy_of_outlived (h : v.Numbered) {o : ChartObject} (ho : o ∈ v.live) {action : ViewAction}
    (hkept : o.node ∉ v.charts ∨ action = .render3DPurityChart) : ¬ (v.act controls action).Tidy := by
  have hlt := h o ho
  intro htidy
  by_cases h3D : action = .render3DPurityChart
  · subst h3D
    have hmem : o.node ∈ [v.fresh] := (htidy.live o.node).mp (List.mem_map_of_mem (List.mem_append_left _ ho))
    rw [List.mem_singleton] at hmem
    omega
  · obtain ⟨drawings,-,-,hre⟩ := act_redraws v controls h3D
    have hlive : o ∈ (v.act controls action).live := by
      rw [hre.live]
      exact List.mem_append_left _ (List.mem_filter.mpr ⟨ho,by simpa using hkept.resolve_right h3D⟩)
    have hmem := (htidy.live o.node).mp (List.mem_map_of_mem hlive)
    rw [hre.container,List.mem_range'_1] at hmem
    omega

/-- Nothing but instances of `Chart`, all of them kept and on show. -/
structure View.Clean (v : View) : Prop where
  container : v.container = v.live.map ChartObject.node
  charts : v.charts = v.live.map ChartObject.node
  isChart : ∀ o ∈ v.live, o.drawing.isChart = true

theorem View.Clean.tidy (h : v.Clean) : v.Tidy := by
  refine ⟨fun n => by rw [h.container],fun n => ?_⟩
  rw [h.charts,List.mem_map]
  exact exists_congr (fun o => and_congr_right (fun ho => (and_iff_left (h.isChart o ho)).symm))

theorem clean_act (h : v.Clean) {action : ViewAction} (h3D : action ≠ .render3DPurityChart) : (v.act controls action).Clean := by
  obtain ⟨drawings,hcharts,-,hre⟩ := act_redraws v controls h3D
  have hgone : v.live.filter (fun o => o.node ∉ v.charts) = [] := by
    rw [List.filter_eq_nil_iff]
    intro o ho
    simpa [h.charts] using ⟨o,ho,rfl⟩
  have hlive := hre.live
  rw [hgone,List.nil_append] at hlive
  refine ⟨?_,?_,fun o ho => ?_⟩
  · rw [hre.container,hlive,nodes_objectsFrom]
  · rw [hre.charts,hlive,nodes_objectsFrom]
  · rw [hlive] at ho
    obtain ⟨⟨d,n⟩,hd,rfl⟩ := List.mem_map.mp ho
    exact hcharts d (List.mem_of_getElem? ((List.mk_mem_zipIdx_iff_le_and_getElem?_sub).mp hd).2)

/-- On an empty page the view in three dimensions is tidy by itself. -/
theorem tidy_3D (h : v.Clean) (hlive : v.live = []) : (v.act controls .render3DPurityChart).Tidy := by
  have hcharts : v.charts = [] := by rw [h.charts,hlive]; rfl
  refine ⟨fun n => ?_,fun n => ?_⟩
  · simp [View.act,View.setControls,View.render3DPurityChart,View.clearContainer,View.initECharts,hlive]
  · simp [View.act,View.setControls,View.render3DPurityChart,View.clearContainer,View.initECharts,hlive,hcharts,
      Drawing.isChart]

theorem live_eq_nil_of_blank {action : ViewAction} (h : (v.act controls action).Clean) (hblank : Blank controls action) :
    (v.act controls action).live = [] := by
  have h3D : action ≠ .render3DPurityChart := by
    rintro rfl
    rcases hblank.2 with hb | hb <;> cases hb
  obtain ⟨drawings,-,hiff,hre⟩ := act_redraws v controls h3D
  have hempty := h.container
  rw [hre.container,hiff.mpr hblank] at hempty
  exact List.map_eq_nil_iff.mp hempty.symm

/-- After an action that is not blank, some object is alive. -/
theorem blank_of_live_eq_nil {action : ViewAction} (h : (v.act controls action).live = []) : Blank controls action := by
  by_cases h3D : action = .render3DPurityChart
  · subst h3D
    exact absurd h (by simp [View.act,View.render3DPurityChart,View.initECharts])
  · obtain ⟨drawings,-,hiff,hre⟩ := act_redraws v controls h3D
    rw [hre.live,List.append_eq_nil_iff] at h
    have hnodes := nodes_objectsFrom v.fresh drawings
    rw [h.2] at hnodes
    refine hiff.mp (List.length_eq_zero_iff.mp ?_)
    simpa using (congrArg List.length hnodes).symm

end Act

/-! Runs. -/

section Run
variable (page : MeasuredPage) {steps : List (Controls × ViewAction)}

theorem run_concat (v : View) (front : List (Controls × ViewAction)) (s : Controls × ViewAction) :
    v.run (front ++ [s]) = (v.run front).act s.1 s.2 := List.foldl_append

theorem numbered_run (front : List (Controls × ViewAction)) : ((View.start page).run front).Numbered := by
  induction front using List.reverseRecOn with
  | nil =>
    intro o ho
    cases ho
  | append_singleton front s ih =>
    rw [run_concat]
    exact numbered_act s.1 ih s.2

/-- The view in three dimensions is taken last and from an empty page, if at all. -/
def OnlyAtEnd (steps : List (Controls × ViewAction)) : Prop :=
  ∀ front controls back, steps = front ++ (controls,.render3DPurityChart) :: back →
    back = [] ∧ (front = [] ∨ ∃ front' s, front = front' ++ [s] ∧ Blank s.1 s.2)

theorem clean_run (front : List (Controls × ViewAction)) (h : ∀ s ∈ front, s.2 ≠ .render3DPurityChart) :
    ((View.start page).run front).Clean := by
  induction front using List.reverseRecOn with
  | nil => exact ⟨rfl,rfl,fun o ho => by cases ho⟩
  | append_singleton front s ih =>
    rw [run_concat]
    exact clean_act s.1 (ih (fun s' hs' => h s' (List.mem_append_left _ hs'))) (h s (by simp))

/-- Before the last of the actions there is no view in three dimensions. -/
private theorem OnlyAtEnd.front (h : OnlyAtEnd steps) {front back : List (Controls × ViewAction)}
    (hsteps : steps = front ++ back) (hback : back ≠ []) : ∀ s ∈ front, s.2 ≠ .render3DPurityChart := by
  rintro ⟨controls,_⟩ hs rfl
  obtain ⟨f,b,rfl⟩ := List.append_of_mem hs
  have hnil := (h f controls (b ++ back) (by rw [hsteps]; simp)).1
  exact hback (List.append_eq_nil_iff.mp hnil).2

private theorem tidy_run (h : OnlyAtEnd steps) {front : List (Controls × ViewAction)} (hfront : front <+: steps) :
    ((View.start page).run front).Tidy := by
  obtain ⟨back,hsteps⟩ := hfront
  rcases List.eq_nil_or_concat front with rfl | ⟨f,⟨controls,action⟩,rfl⟩
  · exact (clean_run page [] (by simp)).tidy
  rw [List.concat_eq_append] at hsteps ⊢
  rw [List.append_assoc] at hsteps
  have hclean := clean_run page f (h.front hsteps.symm (by simp))
  rw [run_concat]
  by_cases h3D : action = .render3DPurityChart
  · subst h3D
    apply tidy_3D controls hclean
    rcases (h f controls back hsteps.symm).2 with rfl | ⟨f',s,rfl,hblank⟩
    · rfl
    · rw [run_concat] at hclean ⊢
      exact live_eq_nil_of_blank s.1 hclean hblank
  · exact (clean_act controls hclean h3D).tidy

private theorem onlyAtEnd_of_tidy (h : ∀ front, front <+: steps → ((View.start page).run front).Tidy) : OnlyAtEnd steps := by
  rintro front controls back rfl
  have hnumbered := numbered_run page front
  have hthere := h (front ++ [(controls,.render3DPurityChart)]) ⟨back,by simp⟩
  have hlive : ((View.start page).run front).live = [] := by
    by_contra hne
    obtain ⟨o,os,heq⟩ := List.exists_cons_of_ne_nil hne
    rw [run_concat] at hthere
    exact not_tidy_of_outlived controls hnumbered (heq ▸ List.mem_cons_self) (.inr rfl) hthere
  refine ⟨?_,?_⟩
  · by_contra hne
    obtain ⟨s,back,rfl⟩ := List.exists_cons_of_ne_nil hne
    have hnext := h (front ++ [(controls,.render3DPurityChart)] ++ [s]) ⟨back,by simp⟩
    have hnone : ((View.start page).run front).charts = [] := by
      rw [List.eq_nil_iff_forall_not_mem]
      intro n hn
      obtain ⟨o,ho,-⟩ := ((h front (List.prefix_append _ _)).charts n).mp hn
      rw [hlive] at ho
      cases ho
    -- the object of echarts is not among the kept ones
    have hobject : (⟨((View.start page).run front).fresh,.purity3D
        (((View.start page).run front).setControls controls).page.render3DPurityChart⟩ : ChartObject) ∈
        ((View.start page).run (front ++ [(controls,.render3DPurityChart)])).live := by
      rw [run_concat]
      exact List.mem_append_right _ (List.mem_singleton_self _)
    have hcharts : ((View.start page).run (front ++ [(controls,.render3DPurityChart)])).charts = [] := by
      rw [run_concat]
      exact hnone
    rw [run_concat (View.start page) (front ++ [(controls,ViewAction.render3DPurityChart)]) s] at hnext
    exact not_tidy_of_outlived s.1 (numbered_run page _) hobject (.inl (by rw [hcharts]; simp)) hnext
  · rcases List.eq_nil_or_concat front with rfl | ⟨f,s,rfl⟩
    · exact .inl rfl
    · rw [List.concat_eq_append] at hlive ⊢
      rw [run_concat] at hlive
      exact .inr ⟨f,s,rfl,blank_of_live_eq_nil s.1 hlive⟩

end Run

/-- Chart objects stay within the container all along a run just if the view in three dimensions
comes last and finds no chart. -/
theorem tidy_throughout_iff (page : MeasuredPage) (steps : List (Controls × ViewAction)) :
    (∀ front, front <+: steps → ((View.start page).run front).Tidy) ↔ OnlyAtEnd steps :=
  ⟨onlyAtEnd_of_tidy page,fun h _ hfront => tidy_run page h hfront⟩

def barControls : Controls := ⟨⟨fun _ => true,fun _ => true⟩,[.bar],fun _ => py "rgba(0,0,0,0.6)"⟩

/-- The bar chart stays alive when the view in three dimensions takes its place, and the latter
when the bar chart is drawn again. -/
theorem chart_outlives_canvas :
    ¬ ((View.start unevenPage).run [(barControls,.renderCharts),(barControls,.render3DPurityChart)]).Tidy ∧
      ¬ ((View.start unevenPage).run [(barControls,.render3DPurityChart),(barControls,.renderCharts)]).Tidy := by
  constructor
  · intro h
    exact absurd ((h.live 0).mp (by decide +kernel)) (by decide +kernel)
  · intro h
    exact absurd ((h.live 0).mp (by decide +kernel)) (by decide +kernel)

end Thintuit.Client
