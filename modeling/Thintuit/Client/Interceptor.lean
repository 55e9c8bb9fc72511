import Thintuit.Server.Routes
import Thintuit.Text.Rewriting

/-! The URLs that `public/js/secure-requests.js` requests in place of the ones it is given:
the wrappers of `fetch` and of `XMLHttpRequest.prototype.open`, step by step. -/
namespace Thintuit.Client
open Server Text

def apiHost : PyStr := py "dev.thintuit.com:41285"
def apiOrigin : PyStr := py "https://dev.thintuit.com:41285"
def dataHost : PyStr := py "data.thintuit.com"

/-- What the wrapper of `fetch` takes for a request to the API, anywhere in a URL. -/
def apiWords : List PyStr :=
  [py "/login",py "/register",py "/user",py "/logout",py "/change-password",py "/delete-account"]

def mentionsApi (url : PyStr) : Bool := apiWords.any (fun word => word <:+: url)

def secureUrl (url : PyStr) : PyStr :=
  if py "http:" <+: url then replaceFirst (py "http:") (py "https:") url else url

def redirectData (url : PyStr) : PyStr :=
  if dataHost <:+: url ∧ mentionsApi url then replaceFirst dataHost apiHost url else url

def addOrigin (url : PyStr) : PyStr :=
  if py "/" <+: url ∧ mentionsApi url then apiOrigin ++ url else url

def ports : List PyStr := [py ":41284",py ":41285"]

/-- `[^\/]+:(41284|41285)` at the start of a text, greedily: what follows the match. -/
def afterPort : Pattern CodePoint
  | [] => none
  | c :: cs =>
    if c = 47 then none
    else match afterPort cs with
      | some r => some r
      | none => if ports.any (fun port => port <+: cs) then some (cs.drop 6) else none

/-- `http(s)?:\/\/[^\/]+:(41284|41285)` at the start of a text. -/
def portUrl : Pattern CodePoint := fun s =>
  if py "https://" <+: s then afterPort (s.drop 8)
  else if py "http://" <+: s then afterPort (s.drop 7)
  else none

def rewritePorts (origin url : PyStr) : PyStr :=
  if py "41284" <:+: url ∨ py "41285" <:+: url then replaceAll portUrl origin url else url

/-- The URL that the wrapper of `fetch` passes on. -/
def fetchUrl (url : PyStr) : PyStr := rewritePorts apiOrigin (addOrigin (redirectData (secureUrl url)))

/-- The URL that the wrapper of `XMLHttpRequest.prototype.open` passes on. -/
def openUrl (url : PyStr) : PyStr := rewritePorts (py "https://dev.thintuit.com") (secureUrl url)

/-! The fixed texts, cut where a proof needs them. -/

theorem https_append (t : PyStr) : py "https://" ++ t = py "https:" ++ (py "//" ++ t) := by
  rw [← List.append_assoc]
  exact congrArg (· ++ t) (by decide : py "https://" = py "https:" ++ py "//")

theorem http_append (t : PyStr) : py "http://" ++ t = py "http:" ++ (py "//" ++ t) := by
  rw [← List.append_assoc]
  exact congrArg (· ++ t) (by decide : py "http://" = py "http:" ++ py "//")

theorem dataHost_append (s : PyStr) : dataHost ++ s = 100 :: (dataHost.tail ++ s) := by
  rw [← List.cons_append]
  exact congrArg (· ++ s) (by decide : dataHost = 100 :: dataHost.tail)

theorem apiHost_append (s : PyStr) : apiHost ++ s = 100 :: (apiHost.tail ++ s) := by
  rw [← List.cons_append]
  exact congrArg (· ++ s) (by decide : apiHost = 100 :: apiHost.tail)

theorem apiHost_last : apiHost = py "dev.thintuit.com:4128" ++ [53] := by decide

theorem apiOrigin_eq : apiOrigin = py "https://" ++ apiHost := by decide

theorem https_ne_http (t u : PyStr) : py "https:" ++ t ≠ py "http:" ++ u := by
  intro h
  exact absurd (congrArg (fun l : PyStr => l[4]?) h) (by decide : some (115 : CodePoint) ≠ some 58)

theorem not_http_https (t : PyStr) : ¬ py "http:" <+: py "https://" ++ t := by
  rintro ⟨u,hu⟩
  rw [https_append] at hu
  exact https_ne_http _ u hu.symm

theorem not_slash_https (t : PyStr) : ¬ py "/" <+: py "https://" ++ t :=
  not_prefix_of_head (rfl : (py "/").head? = some 47) (by decide) (py "ttps://" ++ t)

theorem secureUrl_http (t : PyStr) : secureUrl (py "http:" ++ t) = py "https:" ++ t := by
  rw [secureUrl,if_pos (List.prefix_append _ _),replaceFirst_start (by decide)]

/-! The port pattern. -/

/-- A text that ends at one of the ports, with something before it. -/
def Ported (w : PyStr) : Prop := ∃ x, x ≠ [] ∧ ∃ port ∈ ports, w = x ++ port

theorem length_of_mem_ports : ∀ port ∈ ports, port.length = 6 := by decide

theorem slash_not_mem_ports : ∀ port ∈ ports, 47 ∉ port := by decide

theorem ported_apiHost : Ported apiHost := ⟨py "dev.thintuit.com",by decide,py ":41285",by decide,by decide⟩

theorem Ported.cons {w : PyStr} (h : Ported w) (c : CodePoint) : Ported (c :: w) := by
  obtain ⟨x,-,port,hport,rfl⟩ := h
  exact ⟨c :: x,by simp,port,hport,rfl⟩

theorem Ported.append_left {w : PyStr} (h : Ported w) (a : PyStr) : Ported (a ++ w) := by
  induction a with
  | nil => exact h
  | cons c a ih => exact ih.cons c

theorem Ported.length {w : PyStr} (h : Ported w) : 7 ≤ w.length := by
  obtain ⟨x,hx,port,hport,rfl⟩ := h
  have hpos := List.length_pos_of_ne_nil hx
  rw [List.length_append,length_of_mem_ports port hport]
  omega

/-- One character less: still such a text, or nothing but the port. -/
theorem Ported.tail {c : CodePoint} {w : PyStr} (h : Ported (c :: w)) : Ported w ∨ w ∈ ports := by
  obtain ⟨x,hx,port,hport,hw⟩ := h
  obtain ⟨d,x,rfl⟩ := List.exists_cons_of_ne_nil hx
  obtain ⟨-,rfl⟩ := List.cons.inj hw
  cases x with
  | nil => exact .inr hport
  | cons e x => exact .inl ⟨e :: x,by simp,port,hport,rfl⟩

theorem afterPort_isSome {w : PyStr} (hw : Ported w) (hslash : 47 ∉ w) (r : PyStr) : (afterPort (w ++ r)).isSome := by
  induction w with
  | nil => exact absurd hw.length (by decide)
  | cons c w ih =>
    rw [List.mem_cons,not_or] at hslash
    rw [List.cons_append,afterPort,if_neg (Ne.symm hslash.1)]
    rcases hw.tail with hw | hw
    · obtain ⟨r',hr'⟩ := Option.isSome_iff_exists.mp (ih hw hslash.2)
      rw [hr']
      rfl
    · have hany : ports.any (fun port => port <+: w ++ r) = true :=
        List.any_eq_true.mpr ⟨w,hw,decide_eq_true (List.prefix_append w r)⟩
      cases afterPort (w ++ r) with
      | some r' => rfl
      | none => rw [if_pos hany]; rfl

theorem afterPort_ne_none {w : PyStr} (hw : Ported w) (hslash : 47 ∉ w) (r : PyStr) : afterPort (w ++ r) ≠ none :=
  Option.isSome_iff_ne_none.mp (afterPort_isSome hw hslash r)

/-- The match ends at the last port before a slash. -/
theorem afterPort_eq_some {s r : PyStr} (h : afterPort s = some r) :
    ∃ w, s = w ++ r ∧ Ported w ∧ 47 ∉ w ∧ ∀ w' r', s = w' ++ r' → Ported w' → 47 ∉ w' → w'.length ≤ w.length := by
  induction s with
  | nil => cases h
  | cons c cs ih =>
    by_cases hc : c = 47
    · rw [afterPort,if_pos hc] at h; cases h
    rw [afterPort,if_neg hc] at h
    cases hcs : afterPort cs with
    | some r' =>
      rw [hcs] at h
      obtain rfl : r' = r := Option.some.inj h
      obtain ⟨w,rfl,hw,hslash,hlast⟩ := ih hcs
      refine ⟨c :: w,rfl,hw.cons c,by simp [Ne.symm hc,hslash],fun w' r'' hs hw' hslash' => ?_⟩
      cases w' with
      | nil => simp
      | cons d w' =>
        have hrest : w ++ r' = w' ++ r'' := (List.cons.inj hs).2
        rcases hw'.tail with hw'' | hport
        · have := hlast w' r'' hrest hw'' (fun hm => hslash' (List.mem_cons_of_mem _ hm))
          simpa using this
        · have := hw.length
          rw [List.length_cons,List.length_cons,length_of_mem_ports w' hport]
          omega
    | none =>
      rw [hcs] at h
      dsimp only at h
      split at h
      · rename_i hany
        obtain ⟨port,hport,hp⟩ := List.any_eq_true.mp hany
        obtain ⟨r',rfl⟩ := of_decide_eq_true hp
        have hlen := length_of_mem_ports port hport
        rw [← hlen,List.drop_left] at h
        obtain rfl : r' = r := Option.some.inj h
        refine ⟨c :: port,rfl,⟨[c],by simp,port,hport,rfl⟩,?_,fun w' r'' hs hw' hslash' => ?_⟩
        · simp [Ne.symm hc,slash_not_mem_ports port hport]
        cases w' with
        | nil => simp
        | cons d w' =>
          have hrest : port ++ r' = w' ++ r'' := (List.cons.inj hs).2
          rcases hw'.tail with hw'' | hport'
          · exact absurd (hrest ▸ hcs) (afterPort_ne_none hw'' (fun hm => hslash' (List.mem_cons_of_mem _ hm)) r'')
          · rw [List.length_cons,List.length_cons,hlen,length_of_mem_ports w' hport']
      · cases h

/-- Before a slash, the whole text matches if it ends at a port. -/
theorem afterPort_ported {w : PyStr} (hw : Ported w) (hslash : 47 ∉ w) (z : PyStr) :
    afterPort (w ++ 47 :: z) = some (47 :: z) := by
  obtain ⟨r,hr⟩ := Option.isSome_iff_exists.mp (afterPort_isSome hw hslash (47 :: z))
  obtain ⟨w',hs,-,hslash',hlast⟩ := afterPort_eq_some hr
  have hlen := hlast w (47 :: z) rfl hw hslash
  rw [hr]
  rcases List.append_eq_append_iff.mp hs with ⟨u,rfl,hu⟩ | ⟨u,rfl,hu⟩
  · cases u with
    | nil => rw [show r = 47 :: z from hu.symm]
    | cons d u =>
      obtain rfl : 47 = d := (List.cons.inj hu).1
      exact absurd (by simp) hslash'
  · rw [List.length_append] at hlen
    obtain rfl : u = [] := List.length_eq_zero_iff.mp (by omega)
    rw [show r = 47 :: z from hu]

theorem portUrl_https (t : PyStr) : portUrl (py "https://" ++ t) = afterPort t := by
  rw [portUrl,if_pos (List.prefix_append _ _)]
  rfl

theorem portUrl_http (t : PyStr) : portUrl (py "http://" ++ t) = afterPort t := by
  have hnot : ¬ py "https://" <+: py "http://" ++ t := by
    rintro ⟨u,hu⟩
    rw [https_append,http_append] at hu
    exact https_ne_http _ _ hu
  rw [portUrl,if_neg hnot,if_pos (List.prefix_append _ _)]
  rfl

def schemes : List PyStr := [py "https://",py "http://"]

theorem mem_schemes_iff (scheme : PyStr) : scheme ∈ schemes ↔ scheme = py "https://" ∨ scheme = py "http://" := by
  simp [schemes]

theorem scheme_eq : ∀ scheme ∈ schemes, scheme = 104 :: scheme.tail ∧ 104 ∉ scheme.tail := by decide

theorem scheme_head : ∀ scheme ∈ schemes, scheme.head? = some 104 := by decide

theorem portUrl_scheme {scheme : PyStr} (h : scheme ∈ schemes) (t : PyStr) : portUrl (scheme ++ t) = afterPort t := by
  rcases (mem_schemes_iff scheme).mp h with rfl | rfl
  · exact portUrl_https t
  · exact portUrl_http t

theorem portUrl_eq_some {s r : PyStr} (h : portUrl s = some r) :
    ∃ scheme ∈ schemes, ∃ t, s = scheme ++ t ∧ afterPort t = some r := by
  unfold portUrl at h
  split at h
  · rename_i hp
    obtain ⟨t,rfl⟩ := hp
    exact ⟨_,by decide,t,rfl,h⟩
  · split at h
    · rename_i hp
      obtain ⟨t,rfl⟩ := hp
      exact ⟨_,by decide,t,rfl,h⟩
    · cases h

theorem portUrl_proper : Pattern.Proper portUrl := by
  intro s r h
  obtain ⟨scheme,hscheme,t,rfl,ht⟩ := portUrl_eq_some h
  obtain ⟨w,rfl,hw,-,-⟩ := afterPort_eq_some ht
  refine ⟨scheme ++ w,fun hnil => ?_,(List.append_assoc ..).symm⟩
  have hlen := congrArg List.length hnil
  have := hw.length
  rw [List.length_append,List.length_nil] at hlen
  omega

/-- A match begins with the letter h. -/
theorem portUrl_cons {c : CodePoint} (hc : c ≠ 104) (s : PyStr) : portUrl (c :: s) = none := by
  cases h : portUrl (c :: s) with
  | none => rfl
  | some r =>
    obtain ⟨scheme,hscheme,t,hs,-⟩ := portUrl_eq_some h
    have hc' := congrArg List.head? hs
    rw [List.head?_append,scheme_head scheme hscheme] at hc'
    exact absurd (Option.some.inj hc') hc

/-! Rewriting of ports. -/

/-- The test before the replacement only spares the work: a match has one of the numbers. -/
theorem rewritePorts_eq (origin url : PyStr) : rewritePorts origin url = replaceAll portUrl origin url := by
  unfold rewritePorts
  split
  · rfl
  · rename_i hno
    refine (replaceAll_of_no_match (fun t ht => ?_)).symm
    cases h : portUrl t with
    | none => rfl
    | some r =>
      obtain ⟨scheme,-,u,rfl,hu⟩ := portUrl_eq_some h
      obtain ⟨w,rfl,⟨x,-,port,hport,rfl⟩,-,-⟩ := afterPort_eq_some hu
      have hnumber : ∀ port ∈ ports, py "41284" <:+: port ∨ py "41285" <:+: port := by decide
      have hin : port <:+: url := by
        refine List.IsInfix.trans ⟨scheme ++ x,r,?_⟩ ht.isInfix
        simp
      exact absurd ((hnumber port hport).imp (fun h => h.trans hin) (fun h => h.trans hin)) hno

@[simp] theorem replaceAll_slash (origin s : PyStr) :
    replaceAll portUrl origin (47 :: s) = 47 :: replaceAll portUrl origin s :=
  replaceAll_cons (portUrl_cons (by decide) s)

/-- A scheme that no port follows stays in front. -/
theorem replaceAll_https (origin : PyStr) {t : PyStr} (h : afterPort t = none) :
    replaceAll portUrl origin (py "https://" ++ t) = py "https://" ++ replaceAll portUrl origin t := by
  refine replaceAll_append _ _ (fun u hu hne => ?_)
  rcases List.suffix_cons_iff.mp (hu : u <:+ 104 :: py "ttps://") with rfl | hu
  · exact (portUrl_https t).trans h
  · obtain ⟨c,u,rfl⟩ := List.exists_cons_of_ne_nil hne
    have hmem : c ∈ py "ttps://" := hu.subset List.mem_cons_self
    exact portUrl_cons (ne_of_mem_of_not_mem hmem (by decide)) (u ++ t)

/-- The API's origin is matched as a whole and put back. -/
theorem replaceAll_apiOrigin (s : PyStr) :
    replaceAll portUrl apiOrigin (apiOrigin ++ 47 :: s) = apiOrigin ++ 47 :: replaceAll portUrl apiOrigin s := by
  have hmatch : portUrl (apiOrigin ++ 47 :: s) = some (47 :: s) := by
    rw [apiOrigin_eq,List.append_assoc,portUrl_https]
    exact afterPort_ported ported_apiHost (by decide) s
  rw [replaceAll_match portUrl_proper hmatch,replaceAll_slash]

/-! Redirecting the data host. -/

theorem secureUrl_slash (s : PyStr) : secureUrl (47 :: s) = 47 :: s :=
  if_neg (not_prefix_of_head (by decide : (py "http:").head? = some 104) (by decide) s)

theorem redirectData_of_not_mentions {url : PyStr} (h : mentionsApi url = false) : redirectData url = url :=
  if_neg (by simp [h])

theorem redirectData_slash (s : PyStr) : ∃ s', redirectData (47 :: s) = 47 :: s' := by
  unfold redirectData
  split
  · refine ⟨replaceFirst dataHost apiHost s,?_⟩
    rw [replaceFirst,if_neg (not_prefix_of_head (by decide : dataHost.head? = some 100) (by decide) s)]
  · exact ⟨s,rfl⟩

/-- A word of the API keeps its place: where it runs into the data host, it runs into the API's alike. -/
theorem infix_redirected {word a b : PyStr} (hword : word ∈ apiWords) (h : word <:+: a ++ dataHost ++ b) :
    word <:+: a ++ apiHost ++ b := by
  have hshape : ∀ word ∈ apiWords, word.head? = some 47 ∧ word.length ≤ 16 := by decide
  have hoverlap : ∀ word ∈ apiWords, ∀ k < 17, 0 < k → word.drop k <+: dataHost → word.drop k <+: apiHost := by
    decide
  obtain ⟨hhead,hlen⟩ := hshape word hword
  obtain ⟨p,q,hpq⟩ := h
  rw [List.append_assoc,List.append_assoc,List.append_eq_append_iff] at hpq
  rcases hpq with ⟨u,rfl,hu⟩ | ⟨u,rfl,hu⟩
  · -- it begins before the host
    rcases List.append_eq_append_iff.mp hu with ⟨v,rfl,-⟩ | ⟨v,rfl,hv⟩
    · exact ⟨p,v ++ apiHost ++ b,by simp⟩
    · have hvlen : v.length ≤ dataHost.length := by
        rw [List.length_append] at hlen
        exact (Nat.le_add_left ..).trans (hlen.trans (by decide))
      have hv' : v <+: dataHost :=
        List.prefix_of_prefix_length_le (hv ▸ List.prefix_append v q) (List.prefix_append dataHost b) hvlen
      have hu0 : u ≠ [] := by
        rintro rfl
        obtain ⟨d,hd⟩ := hv'
        have := congrArg List.head? hd
        rw [List.head?_append,← List.nil_append v,hhead] at this
        exact absurd this (by decide : some (47 : CodePoint) ≠ some 100)
      have hk := hoverlap _ hword u.length (by rw [List.length_append] at hlen; omega) (List.length_pos_of_ne_nil hu0)
      rw [List.drop_left] at hk
      obtain ⟨d,hd⟩ := hk hv'
      exact ⟨p,d ++ b,by rw [← hd]; simp⟩
  · -- it begins after the host, which has no slash
    rcases List.append_eq_append_iff.mp hu with ⟨v,rfl,hv⟩ | ⟨v,hv,hq⟩
    · exact ⟨a ++ apiHost ++ v,q,by rw [hv]; simp⟩
    · cases v with
      | nil => exact ⟨a ++ apiHost,q,by rw [List.nil_append] at hq; rw [← hq]; simp⟩
      | cons c v =>
        have hc := congrArg List.head? hq
        rw [List.head?_append,hhead] at hc
        obtain rfl : 47 = c := Option.some.inj hc
        exact absurd (hv ▸ by simp : (47 : CodePoint) ∈ dataHost) (by decide)

theorem mentionsApi_iff (url : PyStr) : mentionsApi url = true ↔ ∃ word ∈ apiWords, word <:+: url := by
  simp [mentionsApi]

theorem apiWord_eq : ∀ word ∈ apiWords, word = 47 :: word.tail := by decide

theorem mentionsApi_front {front : PyStr} (h : 47 ∉ front) (s : PyStr) : mentionsApi (front ++ s) = mentionsApi s := by
  have hhead : ∀ word ∈ apiWords, word.head? = some 47 := by decide
  rw [Bool.eq_iff_iff,mentionsApi_iff,mentionsApi_iff]
  exact exists_congr (fun word => and_congr_right (fun hword => infix_append_of_head (hhead word hword) h s))

theorem dataHost_front_iff {front : PyStr} (h : 100 ∉ front) (s : PyStr) : dataHost <:+: front ++ s ↔ dataHost <:+: s :=
  infix_append_of_head (by decide : dataHost.head? = some 100) h s

theorem dataHost_ne_nil : dataHost ≠ [] := by decide

/-- The two outcomes of the redirection. -/
theorem redirectData_cases (url : PyStr) :
    (¬ (dataHost <:+: url ∧ mentionsApi url = true) ∧ redirectData url = url) ∨
      mentionsApi url = true ∧ ∃ a b, url = a ++ dataHost ++ b ∧ redirectData url = a ++ apiHost ++ b ∧
        ¬ dataHost <:+: (a ++ dataHost).dropLast := by
  by_cases h : dataHost <:+: url ∧ mentionsApi url = true
  · rw [redirectData,if_pos h]
    exact .inr ⟨h.2,replaceFirst_eq dataHost_ne_nil h.1⟩
  · exact .inl ⟨h,if_neg h⟩

theorem mentionsApi_redirectData {url : PyStr} (h : mentionsApi url = true) : mentionsApi (redirectData url) = true := by
  rcases redirectData_cases url with ⟨-,heq⟩ | ⟨-,a,b,rfl,heq,-⟩
  · rw [heq,h]
  · obtain ⟨word,hword,hin⟩ := (mentionsApi_iff _).mp h
    rw [heq]
    exact (mentionsApi_iff _).mpr ⟨word,hword,infix_redirected hword hin⟩

/-- The data host has the letter a, the API's host has not. -/
theorem count_redirected_lt (a b : PyStr) : (a ++ apiHost ++ b).count 97 < (a ++ dataHost ++ b).count 97 := by
  have hapi : apiHost.count 97 = 0 := by decide
  have hdata : dataHost.count 97 = 2 := by decide
  simp only [List.count_append]
  omega

/-! Requests that begin with a slash. -/

theorem fetchUrl_slash_of_mentions {s : PyStr} (h : mentionsApi (47 :: s) = true) :
    ∃ s', redirectData (47 :: s) = 47 :: s' ∧ fetchUrl (47 :: s) = apiOrigin ++ 47 :: replaceAll portUrl apiOrigin s' := by
  obtain ⟨s',hs'⟩ := redirectData_slash s
  have hadd : addOrigin (47 :: s') = apiOrigin ++ 47 :: s' :=
    if_pos ⟨List.prefix_append [47] s',hs' ▸ mentionsApi_redirectData h⟩
  exact ⟨s',hs',by rw [fetchUrl,secureUrl_slash,hs',hadd,rewritePorts_eq,replaceAll_apiOrigin]⟩

theorem fetchUrl_slash_of_not_mentions {s : PyStr} (h : mentionsApi (47 :: s) = false) :
    fetchUrl (47 :: s) = 47 :: replaceAll portUrl apiOrigin s := by
  have hadd : addOrigin (47 :: s) = 47 :: s := if_neg (by simp [h])
  rw [fetchUrl,secureUrl_slash,redirectData_of_not_mentions h,hadd,rewritePorts_eq,replaceAll_slash]

/-- A text that a browser resolves against the origin of the page. -/
def RootRelative (url : PyStr) : Prop := ∃ rest, url = 47 :: rest ∧ rest.head? ≠ some 47

theorem rootRelative_replaceAll {url : PyStr} (h : RootRelative url) : RootRelative (replaceAll portUrl apiOrigin url) := by
  obtain ⟨rest,rfl,hrest⟩ := h
  refine ⟨_,replaceAll_slash _ _,?_⟩
  cases rest with
  | nil => exact hrest
  | cons c cs =>
    cases hm : portUrl (c :: cs) with
    | none => rw [replaceAll_cons hm]; exact hrest
    | some r =>
      rw [replaceAll_match portUrl_proper hm,List.head?_append]
      exact (by decide : some (104 : CodePoint) ≠ some 47)

/-! The server's routes. -/

/-- The endpoints that answer JSON to the pages' requests; the others serve a page or a greeting. -/
def jsonApi : Endpoint → Bool
  | .registerUser | .loginUser | .getUserInfo | .listAllUsers | .getModelAccuracy | .logoutUser
  | .changePassword | .deleteAccount => true
  | .serveRegisterPage | .serveDashboard | .serveVisualization | .root => false

def apiPaths : List PyStr := (routes.filter (fun r => jsonApi r.2.2)).map (fun r => r.2.1)

example : apiPaths = [py "/register",py "/login",py "/user/info",py "/admin/users",py "/api/accuracy",py "/logout",
    py "/change-password",py "/delete-account"] := by decide

def pathOf (url : PyStr) : PyStr := url.takeWhile (fun c => c ≠ 63 && c ≠ 35)

/-- The path of the URL is the given one, up to a trailing slash. -/
def HasPath (path url : PyStr) : Prop := pathOf url = path ∨ pathOf url = path ++ [47]

instance (path url : PyStr) : Decidable (HasPath path url) := inferInstanceAs (Decidable (_ ∨ _))

theorem HasPath.occurs {path url : PyStr} (h : HasPath path url) : path <:+: url := by
  have hurl : pathOf url <+: url := List.takeWhile_prefix _
  rcases h with h | h
  · exact (h ▸ hurl).isInfix
  · exact ((List.prefix_append path [47]).trans (h ▸ hurl)).isInfix

/-- All routes of the API but one have one of the wrapper's words in them. -/
theorem mentionsApi_of_path {path url : PyStr} (hpath : path ∈ apiPaths) (hne : path ≠ py "/api/accuracy")
    (h : HasPath path url) : mentionsApi url = true := by
  have hwords : ∀ path ∈ apiPaths, path ≠ py "/api/accuracy" → ∃ word ∈ apiWords, word <:+: path := by decide
  obtain ⟨word,hword,hin⟩ := hwords path hpath hne
  exact (mentionsApi_iff url).mpr ⟨word,hword,hin.trans h.occurs⟩

/-- The wrapper's decision and the server's routes agree on a URL. -/
def RoutedAlike (url : PyStr) : Prop :=
  ((∃ path ∈ apiPaths, HasPath path url) → apiOrigin ++ [47] <+: fetchUrl url) ∧
    ((¬ ∃ path ∈ apiPaths, HasPath path url) → RootRelative (fetchUrl url))

private theorem not_rootRelative_apiOrigin (s : PyStr) : ¬ RootRelative (apiOrigin ++ s) := by
  rintro ⟨rest,h,-⟩
  exact absurd (congrArg List.head? h) (by decide : some (104 : CodePoint) ≠ some 47)

theorem routedAlike_iff {url : PyStr} (hurl : RootRelative url) :
    RoutedAlike url ↔ (HasPath (py "/api/accuracy") url → ∃ word ∈ apiWords, word <:+: url) ∧
      ((∃ word ∈ apiWords, word <:+: url) → ∃ path ∈ apiPaths, HasPath path url) := by
  rw [← mentionsApi_iff]
  have haccuracy : py "/api/accuracy" ∈ apiPaths := by decide
  obtain ⟨rest,rfl,-⟩ := id hurl
  cases hm : mentionsApi (47 :: rest) with
  | true =>
    obtain ⟨s',-,hfetch⟩ := fetchUrl_slash_of_mentions hm
    have hsent : apiOrigin ++ [47] <+: fetchUrl (47 :: rest) := ⟨replaceAll portUrl apiOrigin s',by rw [hfetch]; simp⟩
    constructor
    · rintro ⟨-,hstays⟩
      refine ⟨fun _ => rfl,fun _ => ?_⟩
      by_contra hpath
      exact not_rootRelative_apiOrigin _ (hfetch ▸ hstays hpath)
    · rintro ⟨-,hpath⟩
      exact ⟨fun _ => hsent,fun hnot => absurd (hpath rfl) hnot⟩
  | false =>
    have hfetch : fetchUrl (47 :: rest) = replaceAll portUrl apiOrigin (47 :: rest) := by
      rw [fetchUrl_slash_of_not_mentions hm,replaceAll_slash]
    have hstays : RootRelative (fetchUrl (47 :: rest)) := hfetch ▸ rootRelative_replaceAll hurl
    constructor
    · rintro ⟨hsent,-⟩
      refine ⟨fun hpath => ?_,fun h => absurd h (by decide)⟩
      obtain ⟨u,hu⟩ := hsent ⟨_,haccuracy,hpath⟩
      rw [← hu,List.append_assoc] at hstays
      exact absurd hstays (not_rootRelative_apiOrigin _)
    · rintro ⟨hno,-⟩
      refine ⟨?_,fun _ => hstays⟩
      rintro ⟨path,hmem,hpath⟩
      by_cases hne : path = py "/api/accuracy"
      · exact absurd (hno (hne ▸ hpath)) (by decide)
      · rw [mentionsApi_of_path hmem hne hpath] at hm
        cases hm

theorem login_routedAlike : RoutedAlike (py "/login?next=1") :=
  (routedAlike_iff ⟨py "login?next=1",by decide,by decide⟩).mpr ⟨by decide,fun _ => ⟨py "/login",by decide,by decide⟩⟩

/-- The accuracy route of the API is asked from the page's origin, and a script from the API's. -/
theorem accuracy_not_routedAlike : ¬ RoutedAlike (py "/api/accuracy") ∧ ¬ RoutedAlike (py "/js/login.js") := by
  constructor
  · intro h
    exact absurd (h.1 ⟨py "/api/accuracy",by decide,by decide⟩) (by decide +kernel)
  · intro h
    have hfetch : fetchUrl (py "/js/login.js") = apiOrigin ++ py "/js/login.js" := by decide +kernel
    exact not_rootRelative_apiOrigin _ (hfetch ▸ h.2 (by decide +kernel))

end Thintuit.Client
