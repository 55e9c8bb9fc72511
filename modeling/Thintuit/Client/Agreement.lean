import Thintuit.Client.Authority

/-! Whether the two wrappers agree on a URL. The one of `fetch` redirects the data host and sends
paths of the API to its origin, the one of `XMLHttpRequest.prototype.open` does neither; both put
their host in place of one with a port. -/
namespace Thintuit.Client
open Server Text UrlReader

/-! The condition. -/

/-- The first data host is behind a scheme, with no slash before it and a port before the next one, so
that both wrappers replace it. -/
def DataReplaced (url : PyStr) : Prop :=
  ∃ name ∈ schemeNames, ∃ a b, url = name ++ (py "//" ++ (a ++ (dataHost ++ b))) ∧
    ¬ dataHost <:+: (a ++ dataHost).dropLast ∧ 47 ∉ a ∧ PortAhead b

/-- No URL with a port begins behind the first character, and behind one at the start the host
has ended. A URL with a word of the API that begins with a slash is requested by a page of
the API, in a single slash and without the data host; one that does not has the data host only where
both wrappers replace it. -/
structure Alike (host url : PyStr) : Prop where
  inner : ¬ PortUrlIn url.tail
  port : ∀ r, portUrl url = some r → Ends r
  slash : py "/" <+: url → mentionsApi url = true → host ∈ apiAuthorities ∧ SingleSlash url ∧ ¬ dataHost <:+: url
  data : ¬ py "/" <+: url → dataHost <:+: url → mentionsApi url = true → DataReplaced url

section SchemeName
variable {name : PyStr} (hname : name ∈ schemeNames) (t : PyStr)
include hname

private theorem portUrl_schemeName : portUrl (name ++ t) = portUrl (py "https:" ++ t) := by
  by_cases hslashes : py "//" <+: t
  · obtain ⟨x,rfl⟩ := hslashes
    rw [← List.append_assoc,portUrl_scheme (schemeName_slashes name hname),← https_append,portUrl_https]
  · have hnone : ∀ name ∈ schemeNames, portUrl (name ++ t) = none := by
      intro name hname
      refine (portUrl_eq_none_iff _).mpr ?_
      rintro ⟨scheme,w,b,heq,hscheme,-,-⟩
      have hschemes : ∀ scheme ∈ schemes, scheme = scheme.takeWhile (· ≠ 58) ++ 58 :: py "//" ∧ 58 ∉ scheme.takeWhile (· ≠ 58) := by
        decide
      obtain ⟨hsplit,hno⟩ := schemeName_colon name hname
      obtain ⟨hsplit',hno'⟩ := hschemes scheme hscheme
      rw [hsplit,hsplit',List.append_assoc,List.append_assoc,List.singleton_append,List.cons_append] at heq
      exact hslashes ⟨_,((append_sep_inj hno hno').mp heq).2.symm⟩
    rw [hnone name hname,hnone (py "https:") (by decide)]

private theorem dataReplaced_schemeName : DataReplaced (name ++ t) ↔
    ∃ a b, t = py "//" ++ (a ++ (dataHost ++ b)) ∧ ¬ dataHost <:+: (a ++ dataHost).dropLast ∧ 47 ∉ a ∧ PortAhead b := by
  constructor
  · rintro ⟨name',hname',a,b,h,hplace⟩
    obtain ⟨hsplit,hno⟩ := schemeName_colon name hname
    obtain ⟨hsplit',hno'⟩ := schemeName_colon name' hname'
    rw [hsplit,hsplit',List.append_assoc,List.append_assoc,List.singleton_append,List.singleton_append] at h
    exact ⟨a,b,((append_sep_inj hno hno').mp h).2,hplace⟩
  · rintro ⟨a,b,rfl,hplace⟩
    exact ⟨name,hname,a,b,rfl,hplace⟩

/-- Behind the name of a scheme, the condition does not depend on which one it is. -/
theorem alike_schemeName_iff (host : PyStr) : Alike host (name ++ t) ↔
    ¬ PortUrlIn t ∧ (∀ r, portUrl (py "https:" ++ t) = some r → Ends r) ∧
      (dataHost <:+: t → mentionsApi t = true → ∃ a b, t = py "//" ++ (a ++ (dataHost ++ b)) ∧
        ¬ dataHost <:+: (a ++ dataHost).dropLast ∧ 47 ∉ a ∧ PortAhead b) := by
  obtain ⟨hcons,hno⟩ := schemeName_eq name hname
  have hslash : ¬ py "/" <+: name ++ t := by
    rw [hcons]
    exact not_prefix_of_head (rfl : (py "/").head? = some 47) (by decide) (name.tail ++ t)
  have htail : (name ++ t).tail = name.tail ++ t := by
    rw [hcons]
    rfl
  have hin := portUrlIn_front_iff hno t
  have hdata := dataHost_schemeName_iff hname t
  have hmentions := mentionsApi_front (slash_not_mem_schemeName name hname) t
  have hplace := dataReplaced_schemeName hname t
  have hport := portUrl_schemeName hname t
  constructor
  · intro h
    refine ⟨fun hports => h.inner ?_,fun r hr => h.port r (hport ▸ hr),fun hd hm => hplace.mp (h.data hslash ?_ ?_)⟩
    · rwa [htail,hin]
    · rwa [hdata]
    · rwa [hmentions]
  · rintro ⟨hports,hends,hd⟩
    refine ⟨?_,fun r hr => hends r (hport ▸ hr),fun hs => absurd hs hslash,fun _ hdata' hm => hplace.mpr (hd ?_ ?_)⟩
    · rwa [htail,hin]
    · rwa [hdata] at hdata'
    · rwa [hmentions] at hm

end SchemeName

theorem alike_secureUrl_iff (host url : PyStr) : Alike host (secureUrl url) ↔ Alike host url := by
  by_cases h : py "http:" <+: url
  · obtain ⟨t,rfl⟩ := h
    rw [secureUrl_http,alike_schemeName_iff (by decide),alike_schemeName_iff (by decide)]
  · rw [secureUrl,if_neg h]

/-! The wrappers on the kinds of URLs. -/

theorem openUrl_of_not_http {s : PyStr} (h : ¬ py "http:" <+: s) : openUrl s = portsTo devHost s := by
  rw [openUrl_eq,secureUrl,if_neg h]

theorem fetchUrl_of_not_slash {s : PyStr} (h : ¬ py "http:" <+: s) (hslash : ¬ py "/" <+: s) :
    fetchUrl s = portsTo apiHost (redirectData s) := by
  have hnot : ¬ (py "/" <+: redirectData s ∧ mentionsApi (redirectData s) = true) := fun hadd =>
    hslash ((prefix_redirectData_iff (by decide) s).mp hadd.1)
  rw [fetchUrl_eq,secureUrl,if_neg h,addOrigin,if_neg hnot]

theorem openUrl_slash (t : PyStr) : openUrl (47 :: t) = portsTo devHost (47 :: t) := by
  rw [openUrl_eq,secureUrl_slash]

theorem fetchUrl_slash_unmentioned {t : PyStr} (h : mentionsApi (47 :: t) = false) :
    fetchUrl (47 :: t) = portsTo apiHost (47 :: t) := by
  rw [fetchUrl_slash_of_not_mentions h,replaceAll_apiOrigin_eq,portsTo_slash]

theorem fetchUrl_slash_mentioned {t : PyStr} (h : mentionsApi (47 :: t) = true) :
    fetchUrl (47 :: t) = py "https://" ++ (apiHost ++ portsTo apiHost (redirectData (47 :: t))) := by
  obtain ⟨s,hs,hfetch⟩ := fetchUrl_slash_of_mentions h
  rw [hfetch,hs,portsTo_slash,replaceAll_apiOrigin_eq,apiOrigin_eq,List.append_assoc]

theorem redirectData_of_no_data {s : PyStr} (h : ¬ dataHost <:+: s) : redirectData s = s := if_neg (fun hboth => h hboth.1)

/-- Nothing makes up for the redirection. -/
theorem redirected_eq_iff (s : PyStr) : portsTo apiHost (redirectData s) = portsTo devHost s ↔
    ¬ (dataHost <:+: s ∧ mentionsApi s = true) ∧ ¬ PortUrlIn s := by
  rcases redirectData_cases s with ⟨hno,heq⟩ | ⟨hmentions,a,b,rfl,heq,-⟩
  · rw [heq,portsTo_eq_iff,and_iff_right hno]
  · rw [heq,List.append_assoc,List.append_assoc]
    refine iff_of_false (redirected_ne a b) (fun h => h.1 ⟨⟨a,b,by simp⟩,?_⟩)
    rwa [← List.append_assoc]

theorem portUrlIn_slash_iff (t : PyStr) : PortUrlIn (47 :: t) ↔ PortUrlIn t :=
  portUrlIn_front_iff (by decide : 104 ∉ py "/") t

theorem portUrl_of_inner {s : PyStr} (h : PortUrlIn s) (hinner : ¬ PortUrlIn s.tail) :
    ∃ r, portUrl s = some r ∧ ¬ PortUrlIn r := by
  obtain ⟨t,ht,hat⟩ := h
  cases s with
  | nil =>
    obtain rfl := List.suffix_nil.mp ht
    exact absurd ⟨[],List.suffix_refl _,hat⟩ hinner
  | cons c cs =>
    rcases List.suffix_cons_iff.mp ht with rfl | ht
    · cases hr : portUrl (c :: cs) with
      | none => exact absurd hat ((portUrl_eq_none_iff _).mp hr)
      | some r =>
        refine ⟨r,rfl,fun hin => hinner ?_⟩
        obtain ⟨w,hw,heq⟩ := portUrl_proper _ r hr
        obtain ⟨d,w,rfl⟩ := List.exists_cons_of_ne_nil hw
        obtain ⟨u,hu,hat'⟩ := hin
        refine ⟨u,hu.trans ?_,hat'⟩
        rw [heq]
        exact List.suffix_append w r
    · exact absurd ⟨t,ht,hat⟩ hinner

/-! The condition is enough. -/

section Enough
variable {Page : Type} {R : UrlReader Page} (hR : R.Standard) (page : Page)
include hR

theorem agree_origins {r : PyStr} (hr : Ends r) :
    R.Agree page (py "https://" ++ (apiHost ++ r)) (py "https://" ++ (devHost ++ r)) := by
  rw [agree_iff_of_read (hR.https page (by decide) hr) (hR.https page (by decide) hr)]
  exact ⟨iff_of_true (by decide) (by decide),rfl⟩

private theorem agree_slash {t : PyStr} (h : Alike (R.host page) (47 :: t)) :
    R.Agree page (fetchUrl (47 :: t)) (openUrl (47 :: t)) := by
  have hin : ¬ PortUrlIn (47 :: t) := mt (portUrlIn_slash_iff t).mp h.inner
  rw [openUrl_slash,portsTo_of_not_in devHost hin]
  cases hm : mentionsApi (47 :: t) with
  | false =>
    rw [fetchUrl_slash_unmentioned hm,portsTo_of_not_in apiHost hin]
    exact agree_refl _
  | true =>
    have hslash : py "/" <+: 47 :: t := List.prefix_append [47] t
    obtain ⟨hhost,hsingle,hdata⟩ := h.slash hslash hm
    rw [fetchUrl_slash_mentioned hm,redirectData_of_no_data hdata,portsTo_of_not_in apiHost hin,
      agree_iff_of_read (hR.https page (by decide) (ends_slash t)) (hR.slash page hslash hsingle)]
    exact ⟨iff_of_true (by decide) hhost,rfl⟩

private theorem agree_replaced {a b : PyStr} (ha : 47 ∉ a) (hb : PortAhead b)
    (h : Alike (R.host page) (py "https://" ++ (a ++ (dataHost ++ b)))) :
    R.Agree page (portsTo apiHost (py "https://" ++ (a ++ (apiHost ++ b))))
      (portsTo devHost (py "https://" ++ (a ++ (dataHost ++ b)))) := by
  obtain ⟨y,r,rfl,hy,hported,hno⟩ := last_port hb
  have hafter : ∀ {host : PyStr}, host ≠ [] → 47 ∉ host → afterPort (a ++ (host ++ (y ++ r))) = some r := by
    intro host hne hhost
    refine (afterPort_iff _ r).mpr ⟨a ++ (host ++ y),by simp,(hported host hne).append_left a,?_,hno⟩
    exact List.not_mem_append ha (List.not_mem_append hhost hy)
  have hends : Ends r := h.port r ((portUrl_https _).trans (hafter (by decide) (by decide)))
  have hin : ¬ PortUrlIn r := by
    rintro ⟨t,ht,hat⟩
    refine h.inner ⟨t,ht.trans ⟨py "ttps://" ++ (a ++ (dataHost ++ y)),?_⟩,hat⟩
    simp [py]
  rw [portsTo_https_of_some apiHost (hafter (by decide) (by decide)),
    portsTo_https_of_some devHost (hafter (by decide) (by decide)),portsTo_of_not_in apiHost hin,portsTo_of_not_in devHost hin]
  exact agree_origins hR page hends

theorem agree_of_alike {s : PyStr} (hhttp : ¬ py "http:" <+: s) (h : Alike (R.host page) s) :
    R.Agree page (fetchUrl s) (openUrl s) := by
  by_cases hslash : py "/" <+: s
  · obtain ⟨t,rfl⟩ := hslash
    exact agree_slash hR page h
  rw [fetchUrl_of_not_slash hhttp hslash,openUrl_of_not_http hhttp]
  rcases redirectData_cases s with ⟨-,heq⟩ | ⟨hm,f,b,hs,heq,hfirst⟩
  · rw [heq]
    by_cases hin : PortUrlIn s
    · obtain ⟨r,hr,hno⟩ := portUrl_of_inner hin h.inner
      rw [portsTo_match apiHost hr,portsTo_match devHost hr,portsTo_of_not_in apiHost hno,portsTo_of_not_in devHost hno]
      exact agree_origins hR page (h.port r hr)
    · rw [portsTo_of_not_in apiHost hin,portsTo_of_not_in devHost hin]
      exact agree_refl _
  · obtain ⟨name,hname,a,b',hs',hfirst',ha,hb⟩ := h.data hslash ⟨f,b,hs.symm⟩ hm
    obtain rfl : name = py "https:" := by
      simp only [schemeNames,List.mem_cons,List.not_mem_nil,or_false] at hname
      rcases hname with rfl | rfl
      · rfl
      · exact absurd (hs' ▸ List.prefix_append _ _) hhttp
    rw [← https_append] at hs'
    -- the first data host is the one in front of the port
    have hplace : ¬ dataHost <:+: ((py "https://" ++ a) ++ dataHost).dropLast := by
      rw [List.append_assoc,List.dropLast_append_of_ne_nil (by simp [dataHost_ne_nil]),dataHost_front_iff (by decide)]
      exact hfirst'
    have hsplit : f ++ (dataHost ++ b) = (py "https://" ++ a) ++ (dataHost ++ b') := by
      rw [← List.append_assoc,← hs,hs',List.append_assoc]
    obtain ⟨rfl,rfl⟩ := first_occurrence_inj hfirst hplace hsplit
    rw [heq,List.append_assoc,List.append_assoc]
    subst hs'
    exact agree_replaced hR page ha hb h

end Enough

/-- Where the condition fails, the wrappers pass on different texts. -/
theorem alike_of_same {s : PyStr} (host : PyStr) (hhttp : ¬ py "http:" <+: s) (h : fetchUrl s = openUrl s) : Alike host s := by
  by_cases hslash : py "/" <+: s
  · obtain ⟨t,rfl⟩ := hslash
    change fetchUrl (47 :: t) = openUrl (47 :: t) at h
    change Alike host (47 :: t)
    cases hm : mentionsApi (47 :: t) with
    | true =>
      rw [fetchUrl_slash_mentioned hm,openUrl_slash,portsTo_slash] at h
      exact absurd (congrArg List.head? h) (by decide : some (104 : CodePoint) ≠ some 47)
    | false =>
      rw [fetchUrl_slash_unmentioned hm,openUrl_slash,portsTo_eq_iff] at h
      refine ⟨mt (portUrlIn_slash_iff t).mpr h,fun r hr => ?_,fun _ hm' => ?_,fun hno => absurd (List.prefix_append [47] t) hno⟩
      · rw [portUrl_cons (by decide)] at hr
        cases hr
      · rw [hm] at hm'
        cases hm'
  · rw [fetchUrl_of_not_slash hhttp hslash,openUrl_of_not_http hhttp,redirected_eq_iff] at h
    obtain ⟨hno,hin⟩ := h
    refine ⟨fun hinner => hin ?_,fun r hr => absurd ?_ hin,fun hs => absurd hs hslash,fun _ hd hm => absurd ⟨hd,hm⟩ hno⟩
    · obtain ⟨t,ht,hat⟩ := hinner
      exact ⟨t,ht.trans (List.tail_suffix s),hat⟩
    · refine ⟨s,List.suffix_refl s,?_⟩
      by_contra hnot
      rw [(portUrl_eq_none_iff s).mpr hnot] at hr
      cases hr

/-! Plainly written URLs: the rests that the wrappers make of them are plain again. -/

theorem literal_of_authorityChar {c : CodePoint} (h : authorityChar c = true) : literal c = true := by
  simp only [authorityChar,Bool.or_eq_true,decide_eq_true_eq] at h
  rcases h with ((h | h) | rfl) | rfl
  · simp [literal,h]
  · simp [literal,h]
  · decide
  · decide

/-- A host in a path: no letter of it is a slash or follows one as a dot does. -/
private theorem dots_host {host : PyStr} (hhost : 47 ∉ host) (hhead : host.head? ≠ some 46) {u v : PyStr}
    (hu : u.IsChain (fun c d => ¬ (c = 47 ∧ d = 46))) (hv : v.IsChain (fun c d => ¬ (c = 47 ∧ d = 46))) (hne : host ≠ []) :
    (u ++ (host ++ v)).IsChain (fun c d => ¬ (c = 47 ∧ d = 46)) := by
  obtain ⟨d,host,rfl⟩ := List.exists_cons_of_ne_nil hne
  have hnone : ∀ {c : CodePoint}, c ∈ d :: host → c ≠ 47 := fun hc h => hhost (h ▸ hc)
  rw [List.isChain_append,List.isChain_append]
  refine ⟨hu,⟨?_,hv,?_⟩,?_⟩
  · refine List.Pairwise.isChain (List.Pairwise.imp_of_mem ?_ (List.pairwise_of_forall (fun _ _ => trivial) : (d :: host).Pairwise (fun _ _ => True)))
    exact fun hc _ _ h => hnone hc h.1
  · exact fun c hc _ _ h => hnone (List.mem_of_getLast? hc) h.1
  · intro c _ e he h
    obtain rfl : d = e := by simpa using he
    exact hhead (by rw [List.head?_cons,h.2])

section Rests
variable {host : PyStr} (hhost : host ∈ [apiHost,devHost])
include hhost

private theorem literal_portsTo {s : PyStr} (h : ∀ c ∈ s, literal c = true) : ∀ c ∈ portsTo host s, literal c = true := by
  have hnew : ∀ host ∈ [apiHost,devHost], (py "https://" ++ host).all literal = true := by decide
  induction s using scan_induction portUrl_proper with
  | nil => exact h
  | skip c cs hc ih =>
    have hskip : portsTo host (c :: cs) = c :: portsTo host cs := replaceAll_cons hc
    rw [hskip]
    exact List.forall_mem_cons.mpr ⟨h c List.mem_cons_self,ih (fun d hd => h d (List.mem_cons_of_mem c hd))⟩
  | step s r hr ih =>
    obtain ⟨w,-,rfl⟩ := portUrl_proper _ r hr
    rw [portsTo_match host hr,← List.append_assoc]
    exact List.forall_mem_append.mpr ⟨List.all_eq_true.mp (hnew host hhost),ih (fun d hd => h d (List.mem_append_right w hd))⟩

private theorem dots_portsTo {s : PyStr} (h : s.IsChain (fun c d => ¬ (c = 47 ∧ d = 46))) :
    (portsTo host s).IsChain (fun c d => ¬ (c = 47 ∧ d = 46)) := by
  have hnew : ∀ host ∈ [apiHost,devHost], 47 ∉ host ∧ host.head? ≠ some 46 ∧ host ≠ [] := by decide
  induction s using scan_induction portUrl_proper with
  | nil => exact h
  | skip c cs hc ih =>
    have hskip : portsTo host (c :: cs) = c :: portsTo host cs := replaceAll_cons hc
    rw [List.isChain_cons] at h
    rw [hskip,List.isChain_cons]
    refine ⟨fun d hd => h.1 d ?_,ih h.2⟩
    -- the rewriting keeps the first character
    have hfirst : [d] <+: portsTo host cs := by
      rw [Option.mem_def] at hd
      obtain ⟨x,hx⟩ := List.head?_eq_some_iff.mp hd
      exact hx ▸ List.prefix_append [d] x
    obtain ⟨x,hx⟩ := (prefix_portsTo_iff host (fun h => absurd h.length_le (by simp [py])) cs).mp hfirst
    rw [← hx]
    rfl
  | step s r hr ih =>
    obtain ⟨w,-,rfl⟩ := portUrl_proper _ r hr
    obtain ⟨hslash,hhead,hne⟩ := hnew host hhost
    rw [portsTo_match host hr]
    exact dots_host hslash hhead (by decide) (ih (List.isChain_append.mp h).2.1) hne

theorem PlainRest.portsTo {r : PyStr} (h : PlainRest r) : PlainRest (portsTo host r) where
  slash := by
    obtain ⟨x,rfl⟩ := List.head?_eq_some_iff.mp h.slash
    rw [portsTo_slash]
    rfl
  chars := literal_portsTo hhost h.chars
  dots := dots_portsTo hhost h.dots

end Rests

namespace PlainRest
variable {r : PyStr} (h : PlainRest r)
include h

theorem ends : Ends r := by
  obtain ⟨x,rfl⟩ := List.head?_eq_some_iff.mp h.slash
  exact ends_slash x

theorem redirected {u v : PyStr} (hr : r = u ++ (dataHost ++ v)) : PlainRest (u ++ (apiHost ++ v)) := by
  subst hr
  have hnew : apiHost.all literal = true := by decide
  obtain ⟨hu,hv,-⟩ := List.isChain_append.mp h.dots
  refine ⟨?_,?_,dots_host (by decide) (by decide) hu (List.isChain_append.mp hv).2.1 (by decide)⟩
  · have hslash := h.slash
    cases u with
    | nil => exact absurd hslash (by decide : some (100 : CodePoint) ≠ some 47)
    | cons c u => exact hslash
  · have hall := List.forall_mem_append.mp h.chars
    exact List.forall_mem_append.mpr ⟨hall.1,List.forall_mem_append.mpr
      ⟨List.all_eq_true.mp hnew,(List.forall_mem_append.mp hall.2).2⟩⟩

theorem redirectData : PlainRest (redirectData r) := by
  rcases redirectData_cases r with ⟨-,heq⟩ | ⟨-,a,b,hr,heq,-⟩
  · rw [heq]
    exact h
  · rw [heq,List.append_assoc]
    exact h.redirected (by rw [hr,List.append_assoc])

theorem singleSlash (hone : ¬ py "//" <+: r) : SingleSlash r := by
  have hne : r ≠ [] := by
    rintro rfl
    exact absurd h.slash (by simp)
  have hblank : ∀ c ∈ r, blank c = false := by
    intro c hc
    have hliteral := h.chars c hc
    simp only [literal,lower,digit,Bool.or_eq_true,Bool.and_eq_true,decide_eq_true_eq] at hliteral
    have hmarks : (py "-._~/?#:=&").all (fun c => !blank c) = true := by decide
    rcases hliteral with ((hc | hc) | hc) | hc
    · simp only [blank,decide_eq_false_iff_not]
      omega
    · simp only [blank,decide_eq_false_iff_not]
      omega
    · simp only [blank,decide_eq_false_iff_not]
      omega
    · simpa using List.all_eq_true.mp hmarks c (List.contains_iff_mem.mp hc)
  rw [SingleSlash,cleaned_of_no_blank hne hblank]
  refine ⟨hone,?_⟩
  rintro ⟨x,rfl⟩
  exact absurd (h.chars 92 (by simp)) (by decide)

/-- A host in front of it, behind two slashes. -/
theorem slashes {a : PyStr} (ha : plainAuthority a = true) : PlainRest (py "//" ++ (a ++ r)) where
  slash := rfl
  chars := by
    refine List.forall_mem_append.mpr ⟨List.all_eq_true.mp (by decide),List.forall_mem_append.mpr ⟨fun c hc => ?_,h.chars⟩⟩
    exact literal_of_authorityChar (mem_plainAuthority ha hc)
  dots := dots_host (slash_not_mem_plainAuthority ha) (plainAuthority_head ha) (by decide) h.dots (plainAuthority_ne_nil ha)

end PlainRest

/-! Where the host of a plain URL is left alone, and where it is replaced. -/

/-- A URL with a port does not begin in a text without a slash that does not end in a colon. -/
private theorem not_portUrlAt_host {t : PyStr} (hslash : 47 ∉ t) (hlast : t.getLast? ≠ some 58) (hne : t ≠ []) (x : PyStr) :
    ¬ PortUrlAt (t ++ 47 :: x) := by
  rintro ⟨scheme,w,b,heq,hscheme,-,-⟩
  have hschemes : ∀ scheme ∈ schemes, scheme = scheme.takeWhile (· ≠ 47) ++ 47 :: [47] ∧ 47 ∉ scheme.takeWhile (· ≠ 47) ∧
      (scheme.takeWhile (· ≠ 47)).getLast? = some 58 := by decide
  obtain ⟨hsplit,hno,hcolon⟩ := hschemes scheme hscheme
  rw [hsplit,List.append_assoc,List.cons_append] at heq
  obtain ⟨rfl,-⟩ := (append_sep_inj hslash hno).mp heq
  exact hlast hcolon

section Host
variable {a : PyStr} (hslash : 47 ∉ a) (hlast : a.getLast? ≠ some 58)
include hslash hlast

private theorem suffix_host {t : PyStr} (ht : t <:+ a) : 47 ∉ t ∧ t.getLast? ≠ some 58 := by
  obtain ⟨u,rfl⟩ := ht
  refine ⟨fun hmem => hslash (List.mem_append_right u hmem),fun h => hlast ?_⟩
  rw [List.getLast?_append,h]
  rfl

theorem portsTo_behind_host (host x : PyStr) : portsTo host (a ++ 47 :: x) = a ++ portsTo host (47 :: x) := by
  refine replaceAll_append a (47 :: x) (fun t ht hne => (portUrl_eq_none_iff _).mpr ?_)
  obtain ⟨hslash',hlast'⟩ := suffix_host hslash hlast ht
  exact not_portUrlAt_host hslash' hlast' hne x

theorem portUrlIn_behind_host (x : PyStr) : PortUrlIn (a ++ 47 :: x) ↔ PortUrlIn (47 :: x) := by
  constructor
  · rintro ⟨t,⟨u,hu⟩,hat⟩
    rcases List.append_eq_append_iff.mp hu with ⟨v,hv,rfl⟩ | ⟨v,rfl,hv⟩
    · by_cases hne : v = []
      · subst hne
        exact ⟨_,List.suffix_refl _,hat⟩
      · obtain ⟨hslash',hlast'⟩ := suffix_host hslash hlast ⟨u,hv.symm⟩
        exact absurd hat (not_portUrlAt_host hslash' hlast' hne x)
    · exact ⟨t,⟨v,hv.symm⟩,hat⟩
  · rintro ⟨t,ht,hat⟩
    exact ⟨t,ht.trans (List.suffix_append _ _),hat⟩

end Host

/-! The condition is necessary for plainly written URLs. -/

/-- The redirection keeps the slashes. -/
private theorem count_slash_redirectData (s : PyStr) : (redirectData s).count 47 = s.count 47 := by
  rcases redirectData_cases s with ⟨-,heq⟩ | ⟨-,a,b,rfl,heq,-⟩
  · rw [heq]
  · have hapi : apiHost.count 47 = 0 := by decide
    have hdata : dataHost.count 47 = 0 := by decide
    rw [heq]
    simp only [List.count_append,hapi,hdata]

/-- The data host in a plain host: a number as a port does not follow it, unless it is one of the two. -/
private theorem behind_data {a f v : PyStr} (ha : plainAuthority a = true) (hsplit : a = f ++ (dataHost ++ v)) (hne : v ≠ []) :
    v.all digit = false := by
  obtain ⟨c,v,rfl⟩ := List.exists_cons_of_ne_nil hne
  have hletter : ∀ {c : CodePoint}, lower c = true ∨ c = 46 → digit c = false := by
    rintro c (hc | rfl)
    · simp only [lower,Bool.and_eq_true,decide_eq_true_eq] at hc
      simp only [digit,Bool.and_eq_false_iff,decide_eq_false_iff_not]
      omega
    · rfl
  have hc : digit c = false := by
    rcases (plainAuthority_iff a).mp ha with hname | ⟨name,port,rfl,hname,hport⟩
    · exact hletter (mem_plainName hname (by rw [hsplit]; simp))
    · rcases separator_place (by decide : 58 ∉ dataHost) hsplit with ⟨u,rfl,hu⟩ | ⟨u,rfl,hu⟩
      · exact absurd (mem_plainPort hport (by rw [hu,dataHost_append]; simp)) (by decide : ¬ digit 100 = true)
      · cases u with
        | nil =>
          obtain rfl := (List.cons.inj hu).1
          rfl
        | cons d u =>
          obtain rfl := (List.cons.inj hu).1
          exact hletter (mem_plainName hname (by simp))
  simp [hc]

section PlainUrls
variable {Page : Type} {R : UrlReader Page} (hR : R.Standard) (page : Page)

section Absolute
variable {a r : PyStr} (ha : plainAuthority a = true) (hr : PlainRest r)
include ha hr

/-- Where a plain host has one of the ports, it is replaced, and otherwise it stays. -/
theorem portsTo_plain : (Ported a ∧ afterPort (a ++ r) = some r) ∨ ¬ Ported a ∧ afterPort (a ++ r) = none := by
  obtain ⟨x,rfl⟩ := List.head?_eq_some_iff.mp hr.slash
  have hslash := slash_not_mem_plainAuthority ha
  by_cases hported : Ported a
  · exact .inl ⟨hported,afterPort_ported hported hslash x⟩
  · refine .inr ⟨hported,Option.eq_none_iff_forall_ne_some.mpr (fun r' h => hported ?_)⟩
    obtain ⟨w,heq,hw,hno,-⟩ := (afterPort_iff _ r').mp h
    obtain ⟨v,rfl,-⟩ := append_of_not_mem hno heq
    obtain rfl := ported_of_prefix ha rfl hw
    rwa [List.append_nil]

theorem portsTo_https_plain (host : PyStr) (h : ¬ Ported a) :
    portsTo host (py "https://" ++ (a ++ r)) = py "https://" ++ (a ++ portsTo host r) := by
  obtain ⟨-,hnone⟩ := (portsTo_plain ha hr).resolve_left (fun hh => h hh.1)
  obtain ⟨x,rfl⟩ := List.head?_eq_some_iff.mp hr.slash
  rw [portsTo_https_of_none host hnone,
    portsTo_behind_host (slash_not_mem_plainAuthority ha) (plainAuthority_getLast ha)]

theorem portsTo_https_ported (host : PyStr) (h : Ported a) :
    portsTo host (py "https://" ++ (a ++ r)) = py "https://" ++ (host ++ portsTo host r) := by
  obtain ⟨-,hsome⟩ := (portsTo_plain ha hr).resolve_right (fun hh => hh.1 h)
  exact portsTo_https_of_some host hsome

theorem alike_plain (host : PyStr) (hin : ¬ PortUrlIn r)
    (hdata : dataHost <:+: py "https://" ++ (a ++ r) → mentionsApi (py "https://" ++ (a ++ r)) = true →
      DataReplaced (py "https://" ++ (a ++ r))) : Alike host (py "https://" ++ (a ++ r)) := by
  refine ⟨?_,fun r' h => ?_,fun hs => absurd hs (not_slash_https _),fun _ => hdata⟩
  · have htail : (py "https://" ++ (a ++ r)).tail = py "ttps://" ++ (a ++ r) := rfl
    obtain ⟨x,rfl⟩ := List.head?_eq_some_iff.mp hr.slash
    rwa [htail,portUrlIn_front_iff (by decide),
      portUrlIn_behind_host (slash_not_mem_plainAuthority ha) (plainAuthority_getLast ha)]
  · rw [portUrl_https] at h
    rcases portsTo_plain ha hr with ⟨-,hsome⟩ | ⟨-,hnone⟩
    · obtain rfl := Option.some.inj (hsome.symm.trans h)
      exact hr.ends
    · cases hnone.symm.trans h

end Absolute

include hR

theorem read_plain {a r : PyStr} (ha : plainAuthority a = true) (hr : PlainRest r) :
    R.read page (py "https://" ++ (a ++ r)) = some (a,r) := by
  rw [hR.https page ha hr.ends,hR.literal hr]

/-- With plain hosts in front, the rests have to be the same. -/
theorem agree_rests {a a' r r' : PyStr} (ha : plainAuthority a = true) (ha' : plainAuthority a' = true) (hr : PlainRest r)
    (hr' : PlainRest r') (h : R.Agree page (py "https://" ++ (a ++ r)) (py "https://" ++ (a' ++ r'))) : r = r' :=
  ((agree_iff_of_read (read_plain hR page ha hr) (read_plain hR page ha' hr')).mp h).2

private theorem alike_slash_of_agree {t : PyStr} (hrest : PlainRest (47 :: t)) (hone : ¬ py "//" <+: 47 :: t)
    (h : R.Agree page (fetchUrl (47 :: t)) (openUrl (47 :: t))) : Alike (R.host page) (47 :: t) := by
  have hopen : R.read page (openUrl (47 :: t)) = some (R.host page,portsTo devHost (47 :: t)) := by
    have hplain : PlainRest (portsTo devHost (47 :: t)) := hrest.portsTo (by decide)
    have hsingle := hplain.singleSlash (mt (prefix_portsTo_iff devHost (by decide) _).mp hone)
    have hslash : py "/" <+: portsTo devHost (47 :: t) := by
      rw [portsTo_slash]
      exact List.prefix_append [47] _
    rw [openUrl_slash,hR.slash page hslash hsingle,hR.literal hplain]
  -- what is asked for is the same, so neither the data host nor a port has been replaced
  have hsame : portsTo apiHost (redirectData (47 :: t)) = portsTo devHost (47 :: t) ∧
      (mentionsApi (47 :: t) = true → R.host page ∈ apiAuthorities) := by
    cases hm : mentionsApi (47 :: t) with
    | true =>
      have hplain : PlainRest (portsTo apiHost (redirectData (47 :: t))) := hrest.redirectData.portsTo (by decide)
      rw [fetchUrl_slash_mentioned hm,agree_iff_of_read (read_plain hR page (by decide) hplain) hopen] at h
      exact ⟨h.2,fun _ => h.1.mp (by decide)⟩
    | false =>
      have hplain : PlainRest (portsTo apiHost (47 :: t)) := hrest.portsTo (by decide)
      have hsingle := hplain.singleSlash (mt (prefix_portsTo_iff apiHost (by decide) _).mp hone)
      have hslash : py "/" <+: portsTo apiHost (47 :: t) := by
        rw [portsTo_slash]
        exact List.prefix_append [47] _
      have hfetch : R.read page (fetchUrl (47 :: t)) = some (R.host page,portsTo apiHost (47 :: t)) := by
        rw [fetchUrl_slash_unmentioned hm,hR.slash page hslash hsingle,hR.literal hplain]
      rw [agree_iff_of_read hfetch hopen] at h
      rw [redirectData_of_not_mentions hm]
      exact ⟨h.2,fun hno => absurd hno (by simp)⟩
  obtain ⟨hno,hin⟩ := (redirected_eq_iff _).mp hsame.1
  refine ⟨mt (portUrlIn_slash_iff t).mpr hin,fun r hr => ?_,fun _ hm => ?_,fun hs => absurd (List.prefix_append [47] t) hs⟩
  · rw [portUrl_cons (by decide)] at hr
    cases hr
  · exact ⟨hsame.2 hm,hrest.singleSlash hone,fun hd => hno ⟨hd,hm⟩⟩

private theorem alike_slashes_of_agree {a r : PyStr} (ha : plainAuthority a = true) (hr : PlainRest r)
    (h : R.Agree page (fetchUrl (py "//" ++ (a ++ r))) (openUrl (py "//" ++ (a ++ r)))) :
    Alike (R.host page) (py "//" ++ (a ++ r)) := by
  have hkept : ∀ host, portsTo host (py "//" ++ (a ++ r)) = py "//" ++ (a ++ portsTo host r) := by
    intro host
    obtain ⟨x,rfl⟩ := List.head?_eq_some_iff.mp hr.slash
    rw [portsTo_front host (by decide),portsTo_behind_host (slash_not_mem_plainAuthority ha) (plainAuthority_getLast ha)]
  have hread : ∀ host ∈ [apiHost,devHost], R.read page (py "//" ++ (a ++ portsTo host r)) = some (a,portsTo host r) := by
    intro host hhost
    rw [hR.slashes page ha (hr.portsTo hhost).ends,hR.literal (hr.portsTo hhost)]
  have hopen : openUrl (py "//" ++ (a ++ r)) = py "//" ++ (a ++ portsTo devHost r) := (openUrl_slash _).trans (hkept devHost)
  have hslash : py "/" <+: py "//" ++ (a ++ r) := List.prefix_append [47] _
  cases hm : mentionsApi (py "//" ++ (a ++ r)) with
  | true =>
    -- the two slashes are asked for in one case and not in the other
    have hplain : PlainRest (portsTo apiHost (redirectData (py "//" ++ (a ++ r)))) :=
      (hr.slashes ha).redirectData.portsTo (by decide)
    have hfetch : fetchUrl (py "//" ++ (a ++ r)) =
        py "https://" ++ (apiHost ++ portsTo apiHost (redirectData (py "//" ++ (a ++ r)))) := fetchUrl_slash_mentioned hm
    rw [hfetch,hopen,agree_iff_of_read (read_plain hR page (by decide) hplain) (hread devHost (by decide))] at h
    have hcount := congrArg (List.count 47) h.2
    have htwo : (py "//").count 47 = 2 := by decide
    rw [count_slash_portsTo _ (by decide),count_slash_portsTo _ (by decide),count_slash_redirectData,List.count_append,
      List.count_append,htwo] at hcount
    omega
  | false =>
    have hfetch : fetchUrl (py "//" ++ (a ++ r)) = py "//" ++ (a ++ portsTo apiHost r) :=
      (fetchUrl_slash_unmentioned hm).trans (hkept apiHost)
    rw [hfetch,hopen,agree_iff_of_read (hread apiHost (by decide)) (hread devHost (by decide)),portsTo_eq_iff] at h
    refine ⟨?_,fun r' hr' => ?_,fun _ hm' => ?_,fun hs => absurd hslash hs⟩
    · have htail : (py "//" ++ (a ++ r)).tail = py "/" ++ (a ++ r) := rfl
      obtain ⟨x,rfl⟩ := List.head?_eq_some_iff.mp hr.slash
      rw [htail,portUrlIn_front_iff (by decide),
        portUrlIn_behind_host (slash_not_mem_plainAuthority ha) (plainAuthority_getLast ha)]
      exact h.2
    · have hnone : portUrl (py "//" ++ (a ++ r)) = none := portUrl_cons (by decide) _
      cases hnone.symm.trans hr'
    · cases hm.symm.trans hm'

omit hR in
/-- A host that ends in no port keeps it that way behind the data host. -/
private theorem not_ported_dataHost {f v : PyStr} (hv : ¬ ∃ port ∈ ports, port <:+: v) : ¬ Ported (f ++ (dataHost ++ v)) := by
  rintro ⟨w,-,port,hp,hw⟩
  have hcolon : ∀ port ∈ ports, port = 58 :: port.tail := by decide
  rw [hcolon port hp] at hw
  rcases separator_place (by decide : 58 ∉ dataHost) hw.symm with ⟨u,-,hu⟩ | ⟨u,-,rfl⟩
  · have hdigits : ∀ port ∈ ports, 100 ∉ port := by decide
    refine hdigits port hp ?_
    rw [hcolon port hp,hu,dataHost_append]
    simp
  · exact hv ⟨port,hp,u,[],by rw [← hcolon port hp]; simp⟩

/-- The API's host with more behind it is no host. -/
private theorem read_apiHost_more {f v r : PyStr} (ha : plainAuthority (f ++ (dataHost ++ v)) = true) (hne : v ≠ [])
    (hr : PlainRest r) : R.read page (py "https://" ++ (apiHost ++ (v ++ r))) = none := by
  have hform : apiHost ++ (v ++ r) = devHost ++ 58 :: ((py "41285" ++ v) ++ r) := by
    rw [apiHost_eq]
    simp [py]
  rw [hform]
  refine hR.port page (by decide) ?_ ?_ hr.ends
  · exact List.forall_mem_append.mpr ⟨List.all_eq_true.mp (by decide),fun c hc => mem_plainAuthority ha (by simp [hc])⟩
  · rw [List.all_append,behind_data ha rfl hne,Bool.and_false]

/-- Without a port behind the data host it stays for one wrapper, while that of fetch has the API's host
in its place or no host at all. -/
private theorem not_agree_replaced {f v r : PyStr} (ha : plainAuthority (f ++ (dataHost ++ v)) = true) (hr : PlainRest r)
    (hport : ¬ ∃ port ∈ ports, port <:+: v) :
    ¬ R.Agree page (portsTo apiHost (py "https://" ++ (f ++ (apiHost ++ (v ++ r)))))
      (portsTo devHost (py "https://" ++ (f ++ (dataHost ++ v) ++ r))) := by
  intro h
  have hslash := slash_not_mem_plainAuthority ha
  have hf : 47 ∉ f := fun hmem => hslash (List.mem_append_left _ hmem)
  have hv : 47 ∉ v := fun hmem => hslash (by simp [hmem])
  obtain ⟨x,rfl⟩ := List.head?_eq_some_iff.mp hr.slash
  have hfetch : portsTo apiHost (py "https://" ++ (f ++ (apiHost ++ (v ++ 47 :: x)))) =
      py "https://" ++ (apiHost ++ (v ++ portsTo apiHost (47 :: x))) := by
    have hlast : v.getLast? ≠ some 58 := by
      intro hcolon
      refine plainAuthority_getLast ha ?_
      rw [List.getLast?_append,List.getLast?_append,hcolon]
      rfl
    rw [portsTo_https_of_some apiHost (r := v ++ 47 :: x),portsTo_behind_host hv hlast]
    refine (afterPort_iff _ _).mpr ⟨f ++ apiHost,by simp,ported_apiHost.append_left f,List.not_mem_append hf (by decide),?_⟩
    rwa [portAhead_slash_iff hv]
  have hread := read_plain hR page ha (hr.portsTo (by decide : devHost ∈ [apiHost,devHost]))
  rw [hfetch,portsTo_https_plain ha hr devHost (not_ported_dataHost hport)] at h
  by_cases hne : v = []
  · subst hne
    rw [List.nil_append,agree_iff_of_read (read_plain hR page (by decide) (hr.portsTo (by decide))) hread] at h
    have hletter : ∀ authority ∈ apiAuthorities, 97 ∉ authority := by decide
    refine hletter _ (h.1.mp (by decide)) ?_
    rw [dataHost_append]
    simp [dataHost,py]
  · have hsnd := h.2
    rw [read_apiHost_more hR page ha hne (hr.portsTo (by decide)),hread] at hsnd
    cases hsnd

private theorem alike_replaced_of_agree {f v r : PyStr} (ha : plainAuthority (f ++ (dataHost ++ v)) = true) (hr : PlainRest r)
    (hfirst : ¬ dataHost <:+: (f ++ dataHost).dropLast)
    (h : R.Agree page (portsTo apiHost (py "https://" ++ (f ++ (apiHost ++ (v ++ r)))))
      (portsTo devHost (py "https://" ++ (f ++ (dataHost ++ v) ++ r)))) :
    Alike (R.host page) (py "https://" ++ (f ++ (dataHost ++ v) ++ r)) := by
  by_cases hport : ∃ port ∈ ports, port <:+: v
  · -- one of the ports follows, at the end of the host: both wrappers replace it
    obtain ⟨port,hport,u,w,rfl⟩ := hport
    have hported : ∀ host : PyStr, host ≠ [] → Ported (f ++ (host ++ (u ++ port))) := fun host hne =>
      ⟨f ++ (host ++ u),by simp [hne],port,hport,by simp⟩
    obtain rfl : w = [] :=
      ported_of_prefix ha (w := f ++ (dataHost ++ (u ++ port))) (by simp) (hported dataHost (by decide))
    rw [List.append_nil] at *
    have hslash := slash_not_mem_plainAuthority ha
    have hf : 47 ∉ f := fun hmem => hslash (List.mem_append_left _ hmem)
    have hv : 47 ∉ u ++ port := fun hmem => hslash (List.mem_append_right _ (List.mem_append_right _ hmem))
    obtain ⟨x,rfl⟩ := List.head?_eq_some_iff.mp hr.slash
    have hfetch : portsTo apiHost (py "https://" ++ (f ++ (apiHost ++ (u ++ port ++ 47 :: x)))) =
        py "https://" ++ (apiHost ++ portsTo apiHost (47 :: x)) := by
      refine portsTo_https_of_some apiHost ?_
      have hsome := afterPort_ported (hported apiHost (by decide))
        (List.not_mem_append hf (List.not_mem_append (by decide) hv)) x
      simpa using hsome
    rw [hfetch,portsTo_https_ported ha hr devHost (hported dataHost (by decide))] at h
    have hsame := agree_rests hR page (by decide) (by decide) (hr.portsTo (by decide)) (hr.portsTo (by decide)) h
    refine alike_plain ha hr _ ((portsTo_eq_iff _).mp hsame) (fun _ _ => ?_)
    refine ⟨py "https:",by decide,f,u ++ port ++ 47 :: x,?_,hfirst,hf,port,hport,u,47 :: x,by simp,?_⟩
    · rw [← https_append]
      simp
    · exact fun hmem => hv (List.mem_append_left _ hmem)
  · exact absurd h (not_agree_replaced hR page ha hr hport)

private theorem alike_https_of_agree {a r : PyStr} (ha : plainAuthority a = true) (hr : PlainRest r)
    (h : R.Agree page (fetchUrl (py "https://" ++ (a ++ r))) (openUrl (py "https://" ++ (a ++ r)))) :
    Alike (R.host page) (py "https://" ++ (a ++ r)) := by
  rw [fetchUrl_of_not_slash (not_http_https _) (not_slash_https _),openUrl_of_not_http (not_http_https _)] at h
  -- what the two texts come to, with the same or different rests behind the host
  have hrests : ∀ r' : PyStr, PlainRest r' → R.Agree page (portsTo apiHost (py "https://" ++ (a ++ r')))
      (portsTo devHost (py "https://" ++ (a ++ r))) → portsTo apiHost r' = portsTo devHost r := by
    intro r' hr' hagree
    by_cases hported : Ported a
    · rw [portsTo_https_ported ha hr' apiHost hported,portsTo_https_ported ha hr devHost hported] at hagree
      exact agree_rests hR page (by decide) (by decide) (hr'.portsTo (by decide)) (hr.portsTo (by decide)) hagree
    · rw [portsTo_https_plain ha hr' apiHost hported,portsTo_https_plain ha hr devHost hported] at hagree
      exact agree_rests hR page ha ha (hr'.portsTo (by decide)) (hr.portsTo (by decide)) hagree
  rcases redirectData_cases (py "https://" ++ (a ++ r)) with ⟨hno,heq⟩ | ⟨hm,g,b,hs,heq,hfirst⟩
  · rw [heq] at h
    exact alike_plain ha hr _ ((portsTo_eq_iff r).mp (hrests _ hr h)) (fun hd hm => absurd ⟨hd,hm⟩ hno)
  · rw [List.append_assoc,dataHost_append] at hs
    obtain ⟨f,rfl,hsplit⟩ := append_of_not_mem (by decide) hs.symm
    rw [← dataHost_append] at hsplit
    obtain ⟨x,rfl⟩ := List.head?_eq_some_iff.mp hr.slash
    rw [heq,List.append_assoc,List.append_assoc] at h
    rcases separator_place (by decide : 47 ∉ dataHost) hsplit with ⟨v,rfl,rfl⟩ | ⟨v,rfl,rfl⟩
    · -- the data host is behind the host
      refine absurd ?_ (redirected_ne (47 :: v) b)
      refine hrests (47 :: v ++ (apiHost ++ b)) (hr.redirected rfl) ?_
      simpa using h
    · have hfirst' : ¬ dataHost <:+: (f ++ dataHost).dropLast := by
        rw [List.append_assoc,List.dropLast_append_of_ne_nil (by simp [dataHost_ne_nil]),dataHost_front_iff (by decide)] at hfirst
        exact hfirst
      exact alike_replaced_of_agree hR page ha hr hfirst' h

theorem alike_of_agree {s : PyStr} (hplain : Plain s) (hhttp : ¬ py "http:" <+: s)
    (h : R.Agree page (fetchUrl s) (openUrl s)) : Alike (R.host page) s := by
  rcases hplain with ⟨front,hfront,a,r,rfl,ha,hr⟩ | ⟨hr,hone⟩
  · rcases List.mem_cons.mp hfront with rfl | hfront
    · exact alike_slashes_of_agree hR page ha hr h
    · rcases (mem_schemes_iff front).mp hfront with rfl | rfl
      · exact alike_https_of_agree hR page ha hr h
      · rw [http_append] at hhttp
        exact absurd (List.prefix_append _ _) hhttp
  · obtain ⟨t,rfl⟩ := List.head?_eq_some_iff.mp hr.slash
    exact alike_slash_of_agree hR page hr hone h

end PlainUrls

/-! Any URL. -/

private theorem plain_secureUrl {url : PyStr} (h : Plain url) : Plain (secureUrl url) := by
  by_cases hhttp : py "http:" <+: url
  · rcases h with ⟨front,hfront,a,r,rfl,ha,hr⟩ | ⟨hr,-⟩
    · rcases List.mem_cons.mp hfront with rfl | hfront
      · exact absurd hhttp (not_prefix_of_head (by decide : (py "http:").head? = some 104) (by decide) _)
      · rcases (mem_schemes_iff front).mp hfront with rfl | rfl
        · exact absurd hhttp (not_http_https _)
        · rw [http_append,secureUrl_http,← https_append]
          exact .inl ⟨py "https://",by decide,a,r,rfl,ha,hr⟩
    · obtain ⟨t,rfl⟩ := List.head?_eq_some_iff.mp hr.slash
      exact absurd hhttp (not_prefix_of_head (by decide : (py "http:").head? = some 104) (by decide) _)
  · rwa [secureUrl,if_neg hhttp]

end Thintuit.Client
