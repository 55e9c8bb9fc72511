import Thintuit.Client.Interceptor

/-! Whether a wrapped request can still leave over plain HTTP. Browsers read a scheme in
any case, after leading controls and spaces, and through tabs and line breaks; the
wrappers test the text as it stands. -/
namespace Thintuit.Client
open Server Text

def blank (c : CodePoint) : Bool := c.val ≤ 32

/-- Tabs and line breaks, which URLs lose wherever they stand. -/
def dropped (c : CodePoint) : Bool := c = 9 || c = 10 || c = 13

def browserText (url : PyStr) : PyStr := (url.dropWhile blank).filter (fun c => !dropped c)

/-- The URL has scheme http, as browsers read it. -/
def HttpScheme (url : PyStr) : Prop := py "http:" <+: (browserText url).map asciiLower

instance (url : PyStr) : Decidable (HttpScheme url) := inferInstanceAs (Decidable (_ <+: _))

/-- A text in front of a colon that browsers read as `http`. -/
def SchemeFront (f : PyStr) : Prop := (browserText f).map asciiLower = py "http"

theorem blank_of_dropped {c : CodePoint} (h : dropped c = true) : blank c = true := by
  simp only [dropped,Bool.or_eq_true,decide_eq_true_eq] at h
  rcases h with (rfl | rfl) | rfl <;> decide

theorem browserText_append {f : PyStr} (h : ¬ ∀ c ∈ f, blank c = true) (t : PyStr) :
    browserText (f ++ t) = browserText f ++ t.filter (fun c => !dropped c) := by
  have hne : (f.dropWhile blank).isEmpty = false := by
    rw [List.isEmpty_eq_false_iff,ne_eq,List.dropWhile_eq_nil_iff]
    exact h
  rw [browserText,List.dropWhile_append,hne,if_neg (by decide),List.filter_append,browserText]

theorem browserText_of_blank {f : PyStr} (h : ∀ c ∈ f, blank c = true) : browserText f = [] := by
  rw [browserText,List.dropWhile_eq_nil_iff.mpr h]
  rfl

theorem SchemeFront.not_blank {f : PyStr} (hf : SchemeFront f) : ¬ ∀ c ∈ f, blank c = true := by
  intro h
  rw [SchemeFront,browserText_of_blank h] at hf
  exact absurd hf (by decide)

theorem SchemeFront.mem {f : PyStr} (hf : SchemeFront f) {c : CodePoint} (hc : c ∈ f) :
    blank c = true ∨ asciiLower c ∈ py "http" := by
  rw [← List.takeWhile_append_dropWhile (p := blank) (l := f),List.mem_append] at hc
  rcases hc with hc | hc
  · exact .inl (List.mem_takeWhile_imp hc)
  · cases hd : dropped c with
    | true => exact .inl (blank_of_dropped hd)
    | false =>
      refine .inr ?_
      rw [← hf]
      exact List.mem_map_of_mem (List.mem_filter.mpr ⟨hc,by simp [hd]⟩)

/-- A character that no spelling of the scheme or its colon has. -/
def Foreign (c : CodePoint) : Prop := blank c = false ∧ asciiLower c ∉ py "http:"

instance (c : CodePoint) : Decidable (Foreign c) := inferInstanceAs (Decidable (_ ∧ _))

theorem SchemeFront.not_mem {f : PyStr} (hf : SchemeFront f) {d : CodePoint} (hd : Foreign d) : d ∉ f := by
  intro hmem
  rcases hf.mem hmem with h | h
  · rw [hd.1] at h; cases h
  · exact hd.2 (List.mem_append_left [58] h)

theorem SchemeFront.colon_not_mem {f : PyStr} (hf : SchemeFront f) : 58 ∉ f := by
  intro hmem
  rcases hf.mem hmem with h | h
  · exact absurd h (by decide)
  · exact absurd h (by decide)

private theorem asciiLower_eq_colon {c : CodePoint} (h : asciiLower c = 58) : c = 58 := by
  unfold asciiLower at h
  split at h
  · rename_i hc
    have hval := congrArg Fin.val h
    rw [Fin.val_ofNat,Nat.mod_eq_of_lt (by omega)] at hval
    have : (58 : CodePoint).val = 58 := rfl
    omega
  · exact h

theorem httpScheme_iff (url : PyStr) : HttpScheme url ↔ ∃ f t, url = f ++ 58 :: t ∧ SchemeFront f := by
  constructor
  · rintro ⟨rest,h⟩
    have hsplit : (browserText url).map asciiLower = py "http" ++ 58 :: rest := h.symm
    obtain ⟨a,b,hab,ha,hb⟩ := List.map_eq_append_iff.mp hsplit
    obtain ⟨c,b,rfl,hc,-⟩ := List.map_eq_cons_iff.mp hb
    obtain rfl := asciiLower_eq_colon hc
    obtain ⟨x,y,hxy,hx,hy⟩ := List.filter_eq_append_iff.mp hab
    obtain ⟨y₁,y₂,rfl,hy₁,-,-⟩ := List.filter_eq_cons_iff.mp hy
    have hurl : url = (url.takeWhile blank ++ x ++ y₁) ++ 58 :: y₂ := by
      conv_lhs => rw [← List.takeWhile_append_dropWhile (p := blank) (l := url),hxy]
      simp
    cases x with
    | nil =>
      rw [← hx] at ha
      exact absurd ha (by decide)
    | cons c x =>
      have hc : blank c = false := by
        have hhead := List.head?_dropWhile_not blank url
        rw [hxy] at hhead
        simpa using hhead
      have hlead : (url.takeWhile blank ++ c :: (x ++ y₁)).dropWhile blank = c :: (x ++ y₁) := by
        rw [List.dropWhile_append_of_pos (fun d hd => List.mem_takeWhile_imp hd),
          List.dropWhile_cons_of_neg (by simp [hc])]
      have hnone : y₁.filter (fun c => !dropped c) = [] := List.filter_eq_nil_iff.mpr hy₁
      refine ⟨_,y₂,hurl,?_⟩
      rw [SchemeFront,browserText,List.append_assoc,List.cons_append,hlead,← List.cons_append,List.filter_append,hx,hnone,
        List.append_nil]
      exact ha
  · rintro ⟨f,t,rfl,hf⟩
    refine ⟨(t.filter (fun c => !dropped c)).map asciiLower,?_⟩
    rw [browserText_append hf.not_blank,List.map_append,hf]
    rfl

/-- Behind a character that is foreign to it, the scheme does not change. -/
theorem httpScheme_append_cons {d : CodePoint} (hd : Foreign d) (a x : PyStr) :
    HttpScheme (a ++ d :: x) ↔ ∃ f t, a = f ++ 58 :: t ∧ SchemeFront f := by
  have hne : d ≠ 58 := by
    rintro rfl
    exact absurd hd (by decide)
  rw [httpScheme_iff]
  constructor
  · rintro ⟨f,t,h,hf⟩
    rcases List.append_eq_append_iff.mp h with ⟨u,rfl,hu⟩ | ⟨u,rfl,hu⟩
    · cases u with
      | nil => exact absurd (List.cons.inj hu).1 hne
      | cons c u =>
        obtain rfl : d = c := (List.cons.inj hu).1
        exact absurd (by simp) (hf.not_mem hd)
    · cases u with
      | nil => exact absurd (List.cons.inj hu).1.symm hne
      | cons c u =>
        obtain rfl : 58 = c := (List.cons.inj hu).1
        exact ⟨f,u,rfl,hf⟩
  · rintro ⟨f,t,rfl,hf⟩
    exact ⟨f,t ++ d :: x,by simp,hf⟩

theorem not_httpScheme_https (x : PyStr) : ¬ HttpScheme (py "https" ++ x) := by
  have h : py "https" ++ x = py "http" ++ 115 :: x := rfl
  rw [h,httpScheme_append_cons (by decide)]
  rintro ⟨f,t,hf,-⟩
  exact absurd (hf ▸ by simp : (58 : CodePoint) ∈ py "http") (by decide)

theorem not_httpScheme_slash (x : PyStr) : ¬ HttpScheme (47 :: x) := by
  have h := httpScheme_append_cons (by decide : Foreign 47) [] x
  rw [List.nil_append] at h
  rw [h]
  rintro ⟨f,t,hf,-⟩
  simp at hf

/-- Ahead of a literal `http`, there is room for what is blank only. -/
private theorem SchemeFront.lead {a : PyStr} (h : SchemeFront (a ++ py "http")) : ∀ c ∈ a, blank c = true := by
  by_contra hblank
  have hlen := congrArg List.length h
  rw [browserText_append hblank,List.length_map,List.length_append] at hlen
  have hnil : browserText a = [] := by
    apply List.length_eq_zero_iff.mp
    have hfour : ((py "http").filter (fun c => !dropped c)).length = 4 := by decide
    have hfour' : (py "http").length = 4 := by decide
    omega
  apply hblank
  intro c hc
  rw [← List.takeWhile_append_dropWhile (p := blank) (l := a),List.mem_append] at hc
  rcases hc with hc | hc
  · exact List.mem_takeWhile_imp hc
  · have hdrop := List.filter_eq_nil_iff.mp hnil c hc
    exact blank_of_dropped (by simpa using hdrop)

/-! The steps of the wrappers. -/

/-- After nothing but blanks, a literal `http://` with one of the ports before the next slash. -/
def PortUpgraded (url : PyStr) : Prop :=
  ∃ lead seg rest, url = lead ++ (py "http://" ++ (seg ++ rest)) ∧ (∀ c ∈ lead, blank c = true) ∧ 47 ∉ seg ∧ Ported seg

/-- A match comes first unless something in front of it already is more than blank. -/
private theorem not_portUpgraded {f u t : PyStr}
    (hfirst : ∀ v, v <:+ f ++ 58 :: u → v ≠ [] → portUrl (v ++ t) = none) : ¬ PortUpgraded (f ++ 58 :: u ++ t) := by
  rintro ⟨lead,seg,rest,h,hlead,hslash,hport⟩
  rcases List.append_eq_append_iff.mp h with ⟨v,rfl,-⟩ | ⟨v,hv,ht⟩
  · exact absurd (hlead 58 (by simp)) (by decide)
  · cases v with
    | nil =>
      rw [List.append_nil] at hv
      exact absurd (hlead 58 (hv ▸ by simp)) (by decide)
    | cons c v =>
      have hnone := hfirst (c :: v) (hv ▸ List.suffix_append _ _) (by simp)
      rw [← ht,portUrl_http] at hnone
      exact afterPort_ne_none hport hslash rest hnone

/-- The scheme of a text with `https` in it is settled by what comes before. -/
private theorem httpScheme_append_https (a x : PyStr) :
    HttpScheme (a ++ (py "https" ++ x)) ↔ ∃ f u, a = f ++ 58 :: u ∧ SchemeFront f := by
  have hsplit : a ++ (py "https" ++ x) = (a ++ py "http") ++ 115 :: x := by
    rw [List.append_assoc]
    rfl
  rw [hsplit,httpScheme_append_cons (by decide)]
  constructor
  · rintro ⟨f,u,h,hf⟩
    rcases List.append_eq_append_iff.mp h with ⟨v,-,hv⟩ | ⟨v,rfl,hv⟩
    · exact absurd (hv ▸ by simp : (58 : CodePoint) ∈ py "http") (by decide)
    · cases v with
      | nil => exact absurd (List.cons.inj hv).1 (by decide)
      | cons c v =>
        obtain rfl : 58 = c := (List.cons.inj hv).1
        exact ⟨f,v,rfl,hf⟩
  · rintro ⟨f,u,rfl,hf⟩
    exact ⟨f,u ++ py "http",by simp,hf⟩

theorem httpScheme_replaceAll (h url : PyStr) :
    HttpScheme (replaceAll portUrl (py "https" ++ h) url) ↔ HttpScheme url ∧ ¬ PortUpgraded url := by
  rcases replaceAll_cases (py "https" ++ h) portUrl_proper url with hnone | ⟨a,t,r,rfl,hr,hrep,hfirst⟩
  · rw [replaceAll_of_no_match hnone]
    refine ⟨fun hs => ⟨hs,?_⟩,fun hs => hs.1⟩
    rintro ⟨lead,seg,rest,rfl,-,hslash,hport⟩
    have hmatch := hnone _ (List.suffix_append lead _)
    rw [portUrl_http] at hmatch
    exact afterPort_ne_none hport hslash rest hmatch
  · -- the replacement starts with `https`, so the scheme is the one in front of the first match
    have hout : HttpScheme (replaceAll portUrl (py "https" ++ h) (a ++ t)) ↔ ∃ f u, a = f ++ 58 :: u ∧ SchemeFront f := by
      rw [hrep,List.append_assoc,httpScheme_append_https]
    rw [hout]
    constructor
    · rintro ⟨f,u,rfl,hf⟩
      exact ⟨(httpScheme_iff _).mpr ⟨f,u ++ t,by simp,hf⟩,not_portUpgraded hfirst⟩
    · rintro ⟨hs,hnot⟩
      obtain ⟨scheme,hscheme,t,rfl,ht⟩ := portUrl_eq_some hr
      rcases (mem_schemes_iff scheme).mp hscheme with rfl | rfl
      · exact (httpScheme_append_https a (py "://" ++ t)).mp hs
      · obtain ⟨f,u,hfu,hf⟩ := (httpScheme_iff _).mp hs
        have hcolon : a ++ (py "http://" ++ t) = (a ++ py "http") ++ 58 :: (py "//" ++ t) := by
          rw [List.append_assoc]
          rfl
        by_cases hmem : 58 ∈ a
        · obtain ⟨x,y,rfl,hx⟩ := List.eq_append_cons_of_mem hmem
          rw [List.append_assoc,List.cons_append] at hfu
          obtain ⟨rfl,-⟩ := (append_sep_inj hx hf.colon_not_mem).mp hfu
          exact ⟨x,y,rfl,hf⟩
        · rw [hcolon] at hfu
          have hno : 58 ∉ a ++ py "http" := List.not_mem_append hmem (by decide)
          obtain ⟨rfl,-⟩ := (append_sep_inj hno hf.colon_not_mem).mp hfu
          obtain ⟨w,rfl,hw,hslash,-⟩ := afterPort_eq_some ht
          exact absurd ⟨a,w,r,rfl,hf.lead,hslash,hw⟩ hnot

theorem secureUrl_of_http {url : PyStr} (h : py "http:" <+: url) : ∃ x, secureUrl url = py "https" ++ x := by
  rw [secureUrl,if_pos h]
  obtain ⟨x,rfl⟩ := h
  exact ⟨58 :: x,replaceFirst_start (by decide) x⟩

theorem httpScheme_secureUrl (url : PyStr) : HttpScheme (secureUrl url) ↔ HttpScheme url ∧ ¬ py "http:" <+: url := by
  by_cases h : py "http:" <+: url
  · obtain ⟨x,hx⟩ := secureUrl_of_http h
    rw [hx]
    exact iff_of_false (not_httpScheme_https x) (fun hs => hs.2 h)
  · rw [secureUrl,if_neg h]
    exact ⟨fun hs => ⟨hs,h⟩,fun hs => hs.1⟩

/-- Both hosts begin with the same letter, and it is foreign to the scheme. -/
theorem httpScheme_redirectData (url : PyStr) : HttpScheme (redirectData url) ↔ HttpScheme url := by
  rcases redirectData_cases url with ⟨-,heq⟩ | ⟨-,a,b,rfl,heq,-⟩
  · rw [heq]
  · have hd : Foreign 100 := by decide
    rw [heq,List.append_assoc,List.append_assoc,apiHost_append,dataHost_append,httpScheme_append_cons hd,
      httpScheme_append_cons hd]

theorem httpScheme_addOrigin (url : PyStr) : HttpScheme (addOrigin url) ↔ HttpScheme url := by
  unfold addOrigin
  split
  · rename_i h
    obtain ⟨x,rfl⟩ := h.1
    exact iff_of_false (not_httpScheme_https (py "://dev.thintuit.com:41285" ++ (py "/" ++ x))) (not_httpScheme_slash x)
  · rfl

theorem addOrigin_of_httpScheme {url : PyStr} (h : HttpScheme url) : addOrigin url = url := by
  refine if_neg (fun hs => ?_)
  obtain ⟨x,rfl⟩ := hs.1
  exact not_httpScheme_slash x h

theorem httpScheme_fetchUrl (url : PyStr) :
    HttpScheme (fetchUrl url) ↔ HttpScheme url ∧ ¬ py "http:" <+: url ∧ ¬ PortUpgraded (redirectData url) := by
  have horigin : apiOrigin = py "https" ++ py "://dev.thintuit.com:41285" := by decide
  rw [fetchUrl,rewritePorts_eq,horigin,httpScheme_replaceAll,httpScheme_addOrigin,httpScheme_redirectData,
    httpScheme_secureUrl,and_assoc]
  refine and_congr_right (fun hs => and_congr_right (fun hno => not_congr ?_))
  have hsecure : secureUrl url = url := if_neg hno
  rw [hsecure,addOrigin_of_httpScheme ((httpScheme_redirectData url).mpr hs)]

theorem httpScheme_openUrl (url : PyStr) :
    HttpScheme (openUrl url) ↔ HttpScheme url ∧ ¬ py "http:" <+: url ∧ ¬ PortUpgraded url := by
  have horigin : py "https://dev.thintuit.com" = py "https" ++ py "://dev.thintuit.com" := by decide
  rw [openUrl,rewritePorts_eq,horigin,httpScheme_replaceAll,httpScheme_secureUrl,and_assoc]
  refine and_congr_right (fun _ => and_congr_right (fun hno => not_congr ?_))
  have hsecure : secureUrl url = url := if_neg hno
  rw [hsecure]

/-- After blanks and a literal `http://`, a host that the redirection of `fetch` replaces. -/
def DataUpgraded (url : PyStr) : Prop :=
  mentionsApi url = true ∧ ∃ lead seg rest, url = lead ++ (py "http://" ++ (seg ++ rest)) ∧
    (∀ c ∈ lead, blank c = true) ∧ 47 ∉ seg ∧ dataHost <:+: seg

/-- The data host begins after blanks and `http://`. -/
private theorem host_after_scheme {lead a x y : PyStr} (hlead : ∀ c ∈ lead, blank c = true)
    (h : a ++ 100 :: x = lead ++ (py "http://" ++ y)) :
    ∃ a', a = lead ++ (py "http://" ++ a') ∧ y = a' ++ 100 :: x := by
  have hmem : 100 ∉ lead ++ py "http://" :=
    List.not_mem_append (fun hd => absurd (hlead 100 hd) (by decide)) (by decide)
  rw [← List.append_assoc] at h
  obtain ⟨a',ha,hy⟩ := append_of_not_mem hmem h
  exact ⟨a',by rw [ha,List.append_assoc],hy⟩

private theorem portUpgraded_of_segment {lead seg : PyStr} (hlead : ∀ c ∈ lead, blank c = true) (hslash : 47 ∉ seg)
    (b : PyStr) : PortUpgraded (lead ++ (py "http://" ++ seg) ++ apiHost ++ b) := by
  exact ⟨lead,seg ++ apiHost,b,by simp,hlead,List.not_mem_append hslash (by decide),ported_apiHost.append_left seg⟩

theorem portUpgraded_redirectData (url : PyStr) :
    PortUpgraded (redirectData url) ↔ PortUpgraded url ∨ DataUpgraded url := by
  rcases redirectData_cases url with ⟨hno,heq⟩ | ⟨hm,a,b,rfl,heq,hfirst⟩
  · rw [heq]
    refine ⟨.inl,fun h => h.resolve_right ?_⟩
    rintro ⟨hm,lead,seg,rest,rfl,-,-,hin⟩
    refine hno ⟨hin.trans ⟨lead ++ py "http://",rest,by simp⟩,hm⟩
  rw [heq]
  constructor
  · rintro ⟨lead,seg,rest,h,hlead,hslash,hport⟩
    rw [List.append_assoc] at h
    obtain ⟨a,rfl,hrest⟩ := host_after_scheme hlead h
    rcases List.append_eq_append_iff.mp hrest with ⟨u,rfl,-⟩ | ⟨u,rfl,-⟩
    · exact .inl ⟨lead,seg,u ++ dataHost ++ b,by simp,hlead,hslash,hport⟩
    · refine .inr ⟨hm,lead,a ++ dataHost,b,by simp,hlead,?_,List.infix_append' a dataHost []⟩
      rw [List.mem_append,not_or] at hslash ⊢
      exact ⟨hslash.1,by decide⟩
  · rintro (⟨lead,seg,rest,h,hlead,hslash,hport⟩ | ⟨-,lead,seg,rest,h,hlead,hslash,hin⟩)
    · rw [List.append_assoc] at h
      obtain ⟨a,rfl,hrest⟩ := host_after_scheme hlead h
      rcases List.append_eq_append_iff.mp hrest with ⟨u,rfl,-⟩ | ⟨u,rfl,-⟩
      · exact ⟨lead,seg,u ++ apiHost ++ b,by simp,hlead,hslash,hport⟩
      · exact portUpgraded_of_segment hlead (fun h => hslash (List.mem_append_left _ h)) b
    · rw [List.append_assoc] at h
      obtain ⟨a,rfl,hrest⟩ := host_after_scheme hlead h
      rcases List.append_eq_append_iff.mp hrest with ⟨u,rfl,-⟩ | ⟨u,rfl,-⟩
      · -- the first occurrence would not be the first
        refine absurd (hin.trans ?_) hfirst
        rw [List.dropLast_append_of_ne_nil dataHost_ne_nil]
        exact ⟨lead ++ py "http://",u ++ dataHost.dropLast,by simp⟩
      · exact portUpgraded_of_segment hlead (fun h => hslash (List.mem_append_left _ h)) b

inductive Wrapper where
  | fetch | xmlHttpRequest
  deriving DecidableEq

def Wrapper.requested : Wrapper → PyStr → PyStr
  | .fetch => fetchUrl
  | .xmlHttpRequest => openUrl

/-- A request avoids plain HTTP if its URL never had that scheme, spells it literally at the very
start, or after blanks spells it literally in front of a host that is rewritten. -/
theorem not_plain_http_iff (wrapper : Wrapper) (url : PyStr) :
    ¬ HttpScheme (wrapper.requested url) ↔ ¬ HttpScheme url ∨ py "http:" <+: url ∨ PortUpgraded url ∨
      wrapper = .fetch ∧ DataUpgraded url := by
  cases wrapper with
  | fetch =>
    rw [Wrapper.requested,httpScheme_fetchUrl,portUpgraded_redirectData,not_and_or,not_and_or,not_not,not_not]
    simp
  | xmlHttpRequest =>
    rw [Wrapper.requested,httpScheme_openUrl,not_and_or,not_and_or,not_not,not_not]
    simp

theorem plain_http_requested : HttpScheme (Wrapper.fetch.requested (py "HTTP://example.com/")) ∧
    HttpScheme (Wrapper.xmlHttpRequest.requested (py " http://example.com/")) := by decide +kernel

end Thintuit.Client
