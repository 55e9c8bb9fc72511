import Thintuit.Server.Reference
import Thintuit.Server.Roles
import Thintuit.Sql.OrderBy

/-! The two endpoints that show a whole table. Each shows the table as one moment of the run
had it, in an order of its own. -/
namespace Thintuit.Server
open Interaction
variable {rt : Runtime}

/-! The list of users: newest first, those without a date before all others. -/

/-- `x` is no earlier than `y`, and no date is later than any. -/
def noEarlier (x y : Option Timestamp) : Prop := ∀ a ∈ x, ∃ b ∈ y, b ≤ a

namespace Users

theorem newestFirst_total (a b : Row) : (newestFirst a b || newestFirst b a) = true := by
  unfold newestFirst
  cases a.createdAt with
  | none => rfl
  | some x =>
    cases b.createdAt with
    | none => rfl
    | some y =>
      rw [Bool.or_eq_true,decide_eq_true_eq,decide_eq_true_eq]
      exact Nat.le_total y x

theorem newestFirst_iff (a b : Row) : newestFirst a b = true ↔ noEarlier a.createdAt b.createdAt := by
  unfold newestFirst noEarlier
  cases a.createdAt with
  | none => simp
  | some x => cases b.createdAt <;> simp

theorem noEarlier_trans {x y z : Option Timestamp} (hxy : noEarlier x y) (hyz : noEarlier y z) : noEarlier x z := by
  intro a ha
  obtain ⟨b,hb,hba⟩ := hxy a ha
  obtain ⟨c,hc,hcb⟩ := hyz b hb
  exact ⟨c,hc,hcb.trans hba⟩

theorem listing_perm (t : Users) : t.listing.Perm (t.rows.map Row.listed) := (List.mergeSort_perm _ _).map _

theorem listing_sorted (t : Users) : t.listing.Pairwise (fun a b => noEarlier a.createdAt b.createdAt) := by
  have hsorted := List.pairwise_mergeSort (fun a b c hab hbc => (newestFirst_iff a c).mpr
    (noEarlier_trans ((newestFirst_iff a b).mp hab) ((newestFirst_iff b c).mp hbc))) newestFirst_total t.rows
  rw [listing,List.pairwise_map]
  exact hsorted.imp (fun hab => (newestFirst_iff _ _).mp hab)

end Users

section Lists
variable {ι : Type} [DecidableEq ι] {calls : ι → Call} {s : Store} {sched : List (ι × Option PyError)} {n : ι}

/-- Whatever is interleaved with it, `/admin/users` answers with the rows of one store of the run,
each once and newest first, and only after it has read an admin's row for the given id. -/
theorem admin_list_is_snapshot (he : (calls n).request.endpoint = some .listAllUsers)
    (hs : (serving rt calls s sched).succeeded n = true) :
    ∃ userId i admin past c₁ t mid c₂ u future,
      (serving rt calls s sched).log = past ++ ⟨n,c₁,.fetchById userId,t⟩ :: (mid ++ ⟨n,c₂,.fetchUsers,u⟩ :: future) ∧
      (calls n).request.userId = some userId ∧ rt.uuidParam userId = some i ∧ t.users.findById i = some admin ∧
      admin.role = some (py "admin") ∧
      (serving rt calls s sched).threads n = .ret (userList rt u.users.listing) ∧
      u.users.listing.Perm (u.users.rows.map Row.listed) ∧
      u.users.listing.Pairwise (fun a b => noEarlier a.createdAt b.createdAt) := by
  obtain ⟨resp,hret,hsucc,hpath⟩ := serving_succeeded hs
  obtain ⟨userId,admin,rows,hu,hrole,rfl,hes⟩ := listAllUsers_success he hpath hsucc
  obtain ⟨past,c₁,t,rest,hlog,hread,-,hrest⟩ := exchanges_eq_append_cons (exec rt) [_] hes
  obtain ⟨mid,c₂,u,future,rfl,hlist,-,-⟩ := exchanges_eq_append_cons (exec rt) [_] hrest
  obtain ⟨-,i,hi,hrow⟩ := (fetchById_ok_iff rt _ _ _ _).mp hread
  obtain ⟨-,u',hp⟩ := (exec_ok_iff rt _ _ _ _).mp hlist
  cases hp
  exact ⟨userId,i,admin,past,c₁,t,mid,c₂,u,future,hlog,hu,hi,hrow.symm,hrole,hret,u.users.listing_perm,u.users.listing_sorted⟩

/-- An admin and an older account. -/
def staffed : Store where
  users := ⟨[Reference.account,⟨7,py "admin",py "admin@example.com",py "",some 5,some (py "admin")⟩],by decide,by decide⟩
  testrecordsdetails2022 := []

/-- The admin asks for the list while the other account is being deleted. -/
def listingCalls : Bool → Call
  | false => ⟨Client.bare .get "/admin/users" (Reference.sessionOf 7),[],0,0⟩
  | true => ⟨Reference.deleteRequest Reference.accountId,[],0,0⟩

def listingSchedule : List (Bool × Option PyError) :=
  [(false,none),(false,none),(true,none),(true,none),(true,none),(false,none),(false,none)]

theorem admin_list_is_snapshot_deletion :
    (serving reference listingCalls staffed listingSchedule).succeeded false = true ∧
      ∃ u : Store, (serving reference listingCalls staffed listingSchedule).threads false =
        .ret (userList reference u.users.listing) := by
  have hs : (serving reference listingCalls staffed listingSchedule).succeeded false = true := by decide +kernel
  obtain ⟨_,_,_,_,_,_,_,_,u,_,-,-,-,-,-,hret,-⟩ := admin_list_is_snapshot (by rfl) hs
  exact ⟨hs,u,hret⟩

end Lists

/-! The accuracy figures. -/

section Figures
variable {collate : PyStr → PyStr → Bool}

theorem accuracyQuery_sorted (hc : Sql.TotalOrder collate) (records : List TestRecord) :
    (accuracyQuery collate records).Pairwise (fun a b => accuracyOrder collate a b = true) := by
  have hnull := Sql.nullsLast_totalOrder hc
  rw [accuracyQuery]
  exact List.pairwise_mergeSort (Sql.thenBy_trans hnull hnull) (Sql.thenBy_total hnull hnull) _

theorem accuracyGroup_of_perm {xs ys : List TestRecord} (h : xs.Perm ys) : accuracyGroup xs = accuracyGroup ys := by
  funext key
  have hmembers := h.filter (fun r => decide ((r.modelId,r.correctCategory) = key))
  simp only [accuracyGroup,hmembers.length_eq,hmembers.countP_eq]

/-- The answer does not depend on the order of the records. -/
theorem accuracyQuery_of_perm (hc : Sql.TotalOrder collate) {xs ys : List TestRecord} (h : xs.Perm ys) :
    accuracyQuery collate xs = accuracyQuery collate ys := by
  have hnull := Sql.nullsLast_totalOrder hc
  rw [accuracyQuery,accuracyQuery,← accuracyGroup_of_perm h]
  refine Sql.mergeSort_eq_of_perm (Sql.thenBy_total hnull hnull) (Sql.thenBy_trans hnull hnull)
    ((h.map _).dedup.map _) ?_
  intro a ha b hb hab hba
  obtain ⟨j,-,rfl⟩ := List.mem_map.mp ha
  obtain ⟨k,-,rfl⟩ := List.mem_map.mp hb
  obtain ⟨hcategory,hmodel⟩ := Sql.thenBy_antisymm hnull hnull hab hba
  have hkey : j = k := Prod.ext hmodel hcategory
  rw [hkey]

theorem accuracyQuery_eq_group {records : List TestRecord} {row : AccuracyRow} (h : row ∈ accuracyQuery collate records) :
    row = accuracyGroup records row.key := by
  obtain ⟨r,-,rfl⟩ := (mem_accuracyQuery_iff collate records row).mp h
  rfl

private theorem sum_query (f : AccuracyRow → Nat) (p : TestRecord → Bool) {records : List TestRecord}
    (hf : ∀ key, f (accuracyGroup records key) = records.countP (fun r => p r && r.key = key)) :
    ((accuracyQuery collate records).map f).sum = records.countP p := by
  have hgroups : (accuracyQuery collate records).map f =
      ((accuracyQuery collate records).map AccuracyRow.key).map (fun k => records.countP (fun r => p r && r.key = k)) := by
    rw [List.map_map]
    apply List.map_congr_left
    intro row hrow
    rw [accuracyQuery_eq_group hrow,hf]
    rfl
  rw [hgroups]
  apply Sql.sum_groups TestRecord.key p (accuracyQuery_keys_nodup collate records)
  intro r hr
  exact List.mem_map.mpr ⟨_,(mem_accuracyQuery_iff collate records _).mpr ⟨r,hr,rfl⟩,rfl⟩

/-- The answers among the records that name the category of the record. -/
def corrects (records : List TestRecord) : Nat := records.countP (fun r => sqlEq r.mlCategoryFinal r.correctCategory)

theorem sum_total (records : List TestRecord) : ((accuracyQuery collate records).map AccuracyRow.total).sum = records.length := by
  rw [sum_query AccuracyRow.total (fun _ => true) (fun key => by simpa using accuracyGroup_total records key)]
  exact congrFun List.countP_true records

theorem sum_correct (records : List TestRecord) :
    ((accuracyQuery collate records).map AccuracyRow.correct).sum = corrects records :=
  sum_query AccuracyRow.correct _ (accuracyGroup_correct records)

/-- The counts shown for a model and a category; nothing shown counts as zero. -/
def figures (rows : List AccuracyRow) (key : Option PyStr × Option PyStr) : Nat × Nat :=
  match rows.find? (fun row => row.key = key) with
  | some row => (row.total,row.correct)
  | none => (0,0)

theorem figures_query (records : List TestRecord) (key : Option PyStr × Option PyStr) :
    figures (accuracyQuery collate records) key = (records.countP (fun r => r.key = key),
      records.countP (fun r => sqlEq r.mlCategoryFinal r.correctCategory && r.key = key)) := by
  unfold figures
  cases hrow : (accuracyQuery collate records).find? (fun row => row.key = key) with
  | some row =>
    have hkey : row.key = key := by simpa using List.find?_some hrow
    dsimp only
    rw [accuracyQuery_eq_group (List.mem_of_find?_eq_some hrow),hkey,accuracyGroup_total,accuracyGroup_correct]
  | none =>
    have hno : ∀ r ∈ records, r.key ≠ key := by
      intro r hr hkey
      have hmem := (mem_accuracyQuery_iff collate records _).mpr ⟨r,hr,rfl⟩
      exact List.find?_eq_none.mp hrow _ hmem (decide_eq_true hkey)
    have htotal : records.countP (fun r => r.key = key) = 0 := List.countP_eq_zero.mpr (fun r hr => by simpa using hno r hr)
    have hcorrect : records.countP (fun r => sqlEq r.mlCategoryFinal r.correctCategory && r.key = key) = 0 :=
      List.countP_eq_zero.mpr (fun r hr => by simp [hno r hr])
    rw [htotal,hcorrect]

theorem figures_append (xs ys : List TestRecord) (key : Option PyStr × Option PyStr) :
    figures (accuracyQuery collate (xs ++ ys)) key =
      figures (accuracyQuery collate xs) key + figures (accuracyQuery collate ys) key := by
  rw [figures_query,figures_query,figures_query,List.countP_append,List.countP_append]
  rfl

end Figures

section Answers
variable {request : Request} {salt : Bytes}

theorem getModelAccuracy_success {es : List (Exchange DbOp DbOp.Reply)} {resp : Response}
    (he : request.endpoint = some .getModelAccuracy) (hp : Program.Path (serve rt request salt) es (.ret resp))
    (hs : resp.success = true) :
    ∃ records, resp = ok (.arr (records.map AccuracyRow.dict)) ∧ es = [⟨.acquire,.ok ()⟩,⟨.fetchAccuracy,.ok records⟩] := by
  rw [serve_of_endpoint he,handle,respond_getModelAccuracy] at hp
  obtain ⟨_,es,rfl,hp₁⟩ := call_success hp hs (fun e => ⟨_,rfl,rfl⟩)
  obtain ⟨records,es,rfl,hp₂⟩ := call_success hp₁ hs (fun e => ⟨_,rfl,rfl⟩)
  cases hp₂
  exact ⟨records,rfl,rfl⟩

variable {ι : Type} [DecidableEq ι] {calls : ι → Call} {s : Store} {sched : List (ι × Option PyError)} {n : ι}

/-- No request writes to the table of test records. -/
theorem testrecords_kept {past future : Log ι} {e : Event ι Choice Store DbOp}
    (hlog : (serving rt calls s sched).log = past ++ e :: future) :
    e.before.testrecordsdetails2022 = s.testrecordsdetails2022 := by
  have hchain := serving_chain rt calls s sched
  rw [hlog] at hchain
  obtain ⟨hpast,-⟩ := hchain.split
  exact hpast.invariant (fun t => t.testrecordsdetails2022 = s.testrecordsdetails2022) (fun e _ hbefore =>
    (exec_testrecords rt e.choice e.before e.op).trans hbefore) rfl

/-- Whatever is interleaved with it, a successful answer of `/api/accuracy` is the same for every order
of the records. Its rows come in the order of category and model; their totals add up to
the number of records and the correct ones to the number of correct answers; and the figures
of a table in two parts are the sums of those of its parts. -/
theorem accuracy_answers_fixed (hc : Sql.TotalOrder rt.collate) (he : (calls n).request.endpoint = some .getModelAccuracy)
    (hs : (serving rt calls s sched).succeeded n = true) {records : List TestRecord}
    (hperm : records.Perm s.testrecordsdetails2022) :
    (serving rt calls s sched).threads n = .ret (ok (.arr ((accuracyQuery rt.collate records).map AccuracyRow.dict))) ∧
    (accuracyQuery rt.collate records).Pairwise (fun a b => accuracyOrder rt.collate a b = true) ∧
    ((accuracyQuery rt.collate records).map AccuracyRow.total).sum = records.length ∧
    ((accuracyQuery rt.collate records).map AccuracyRow.correct).sum = corrects records ∧
    ∀ xs ys key, records = xs ++ ys → figures (accuracyQuery rt.collate records) key =
      figures (accuracyQuery rt.collate xs) key + figures (accuracyQuery rt.collate ys) key := by
  obtain ⟨resp,hret,hsucc,hpath⟩ := serving_succeeded hs
  obtain ⟨rows,rfl,hes⟩ := getModelAccuracy_success he hpath hsucc
  obtain ⟨past,c,t,future,hlog,hread,-,-⟩ := exchanges_eq_append_cons (exec rt) [_] hes
  obtain ⟨-,t',hp⟩ := (exec_ok_iff rt _ _ _ _).mp hread
  obtain rfl : accuracyQuery rt.collate t.testrecordsdetails2022 = rows := by
    cases hp
    rfl
  have hkept : t.testrecordsdetails2022 = s.testrecordsdetails2022 := testrecords_kept hlog
  refine ⟨?_,accuracyQuery_sorted hc records,sum_total records,sum_correct records,?_⟩
  · rw [hret,hkept,accuracyQuery_of_perm hc hperm]
  · rintro xs ys key rfl
    exact figures_append xs ys key

theorem Reference.collate_totalOrder : Sql.TotalOrder reference.collate where
  total a b := by
    simp only [reference,Bool.or_eq_true,decide_eq_true_eq]
    exact le_total _ _
  trans a b c hab hbc := by
    simp only [reference,decide_eq_true_eq] at hab hbc ⊢
    exact le_trans hab hbc
  antisymm a b hab hba := by
    simp only [reference,decide_eq_true_eq] at hab hba
    exact List.map_injective_iff.mpr Fin.val_injective (le_antisymm hab hba)

/-- The figures are asked for while the account is being deleted. -/
def figureCalls : Bool → Call
  | false => ⟨Client.bare .get "/api/accuracy" ⟨[],[]⟩,[],0,0⟩
  | true => ⟨Reference.deleteRequest Reference.accountId,[],0,0⟩

def figureStore : Store where
  users := Reference.store.users
  testrecordsdetails2022 := [⟨some (py "m1"),some (py "HAZARDOUS"),none⟩,⟨some (py "m1"),some (py "RESIDUAL"),some (py "RESIDUAL")⟩]

def figureSchedule : List (Bool × Option PyError) := [(false,none),(true,none),(true,none),(true,none),(false,none)]

theorem accuracy_answers_fixed_deletion :
    (serving reference figureCalls figureStore figureSchedule).succeeded false = true ∧
      (serving reference figureCalls figureStore figureSchedule).threads false =
        .ret (ok (.arr ((accuracyQuery reference.collate figureStore.testrecordsdetails2022.reverse).map AccuracyRow.dict))) := by
  have hs : (serving reference figureCalls figureStore figureSchedule).succeeded false = true := by decide +kernel
  exact ⟨hs,(accuracy_answers_fixed Reference.collate_totalOrder (by rfl) hs (List.reverse_perm _)).1⟩

end Answers

end Thintuit.Server
