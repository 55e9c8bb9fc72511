import Thintuit.Client.Interceptor

/-! Where the wrapper of `fetch` sends a request, and whether it still asks for the same:
what becomes of the authority of a URL and of everything after it. -/
namespace Thintuit.Client
open Server Text

/-- The last step of the wrapper. -/
abbrev portsRewritten (url : PyStr) : PyStr := replaceAll portUrl apiOrigin url

/-- Two slashes and a port follow, so that an `http:` or `https:` in front is rewritten. -/
def PortFollows (x : PyStr) : Prop := ∃ w r, x = 47 :: (w ++ r) ∧ Ported w ∧ 47 ∉ w

theorem portUrl_segment {w x r : PyStr} (hw : 47 ∉ w) (h : portUrl (w ++ 47 :: x) = some r) :
    (w = py "https:" ∨ w = py "http:") ∧ ∃ t, x = 47 :: t ∧ afterPort t = some r := by
  obtain ⟨scheme,hscheme,t,hs,ht⟩ := portUrl_eq_some h
  rcases (mem_schemes_iff scheme).mp hscheme with rfl | rfl
  · obtain ⟨rfl,rfl⟩ := (append_sep_inj hw (by decide : 47 ∉ py "https:")).mp hs
    exact ⟨.inl rfl,t,rfl,ht⟩
  · obtain ⟨rfl,rfl⟩ := (append_sep_inj hw (by decide : 47 ∉ py "http:")).mp hs
    exact ⟨.inr rfl,t,rfl,ht⟩

private theorem portFollows_of_afterPort {t r : PyStr} (h : afterPort t = some r) : PortFollows (47 :: t) := by
  obtain ⟨w,rfl,hw,hslash,-⟩ := afterPort_eq_some h
  exact ⟨w,r,rfl,hw,hslash⟩

/-- The rewriting keeps the first slash. In front of it only a final `http:` changes; behind it no
letter a is added. -/
theorem portsRewritten_segment {w : PyStr} (hw : 47 ∉ w) (x : PyStr) :
    ∃ w' x', portsRewritten (w ++ 47 :: x) = w' ++ 47 :: x' ∧ 47 ∉ w' ∧ x'.count 97 ≤ x.count 97 ∧
      ((w' = w ∧ ¬ ∃ u, w = u ++ py "http:" ∧ PortFollows x) ∨
        ∃ u, w = u ++ py "http:" ∧ w' = u ++ py "https:" ∧ PortFollows x) := by
  induction w with
  | nil =>
    refine ⟨[],_,replaceAll_slash _ _,by simp,count_replaceAll_le portUrl_proper (by decide) x,.inl ⟨rfl,?_⟩⟩
    rintro ⟨u,hu,-⟩
    have := congrArg List.length hu
    rw [List.length_append] at this
    exact absurd this.symm (Nat.ne_of_gt (Nat.lt_add_left _ (by decide)))
  | cons c w ih =>
    cases hm : portUrl (c :: w ++ 47 :: x) with
    | some r =>
      obtain ⟨hscheme,t,rfl,ht⟩ := portUrl_segment hw hm
      have hfollows := portFollows_of_afterPort ht
      obtain ⟨v,rfl,-,-,-⟩ := afterPort_eq_some ht
      refine ⟨py "https:",47 :: (apiHost ++ portsRewritten r),replaceAll_match portUrl_proper hm,by decide,?_,?_⟩
      · have hle : (portsRewritten r).count 97 ≤ r.count 97 := count_replaceAll_le portUrl_proper (by decide) r
        have hhost : apiHost.count 97 = 0 := by decide
        rw [List.count_cons_of_ne (by decide),List.count_cons_of_ne (by decide),List.count_append,List.count_append]
        omega
      · rcases hscheme with hscheme | hscheme
        · refine .inl ⟨hscheme.symm,?_⟩
          rintro ⟨u,hu,-⟩
          exact absurd ⟨u,(hscheme ▸ hu).symm⟩ (by decide : ¬ py "http:" <:+ py "https:")
        · exact .inr ⟨[],hscheme,rfl,hfollows⟩
    | none =>
      rw [List.mem_cons,not_or] at hw
      obtain ⟨w',x',hseg,hw',hcount,hcase⟩ := ih hw.2
      refine ⟨c :: w',x',(replaceAll_cons hm).trans (congrArg (c :: ·) hseg),by simp [hw.1,hw'],hcount,?_⟩
      rcases hcase with ⟨rfl,hnot⟩ | ⟨u,rfl,rfl,hfollows⟩
      · refine .inl ⟨rfl,?_⟩
        rintro ⟨u,hu,hfollows⟩
        cases u with
        | nil =>
          obtain ⟨v,r,rfl,hv,hslash⟩ := hfollows
          have hmatch : portUrl (c :: w' ++ 47 :: 47 :: (v ++ r)) = afterPort (v ++ r) := by
            rw [hu]
            exact portUrl_http (v ++ r)
          exact absurd (hmatch.symm.trans hm) (afterPort_ne_none hv hslash r)
        | cons d u => exact hnot ⟨u,(List.cons.inj hu).2,hfollows⟩
      · exact .inr ⟨c :: u,rfl,rfl,hfollows⟩

theorem portsRewritten_of_no_slash {s : PyStr} (h : 47 ∉ s) : portsRewritten s = s := by
  refine replaceAll_of_no_match (fun t ht => ?_)
  cases hm : portUrl t with
  | none => rfl
  | some r =>
    obtain ⟨scheme,hscheme,u,rfl,-⟩ := portUrl_eq_some hm
    have hslash : ∀ scheme ∈ schemes, 47 ∈ scheme := by decide
    exact absurd (ht.subset (List.mem_append_left u (hslash scheme hscheme))) h

/-- Nothing cancels out: the text in place of a match and the rest agree with the old ones only
if each does. -/
theorem apiHost_append_iff {w : PyStr} (hw : 47 ∉ w) (r : PyStr) :
    apiHost ++ portsRewritten r = w ++ r ↔ w = apiHost ∧ portsRewritten r = r := by
  constructor
  · intro h
    by_cases hslash : 47 ∈ r
    · obtain ⟨v,z,rfl,hv⟩ := List.eq_append_cons_of_mem hslash
      obtain ⟨v',z',hseg,hv',-,hcase⟩ := portsRewritten_segment hv z
      rw [hseg,← List.append_assoc,← List.append_assoc] at h
      have hleft : 47 ∉ apiHost ++ v' := List.not_mem_append (by decide) hv'
      obtain ⟨hfront,rfl⟩ := (append_sep_inj hleft (List.not_mem_append hw hv)).mp h
      rcases hcase with ⟨rfl,-⟩ | ⟨u,rfl,rfl,-⟩
      · exact ⟨(List.append_cancel_right hfront).symm,hseg⟩
      · -- the two sides end in different letters
        have hends : (apiHost ++ u ++ [104]) ++ py "ttps:" = (w ++ u) ++ py "http:" := by
          rw [List.append_assoc w,← hfront,List.append_assoc,List.append_assoc]
          rfl
        have hlast : py "ttps:" = py "http:" := List.append_inj_right' hends rfl
        exact absurd hlast (by decide)
    · rw [portsRewritten_of_no_slash hslash] at h ⊢
      exact ⟨(List.append_cancel_right h).symm,rfl⟩
  · rintro ⟨rfl,h⟩
    rw [h]

/-- Somewhere in the text there is a URL with one of the ports that is not the API's origin. -/
def StrayPortUrl (s : PyStr) : Prop :=
  ∃ a scheme w b, s = a ++ (scheme ++ (w ++ b)) ∧ scheme ∈ schemes ∧ Ported w ∧ 47 ∉ w ∧ scheme ++ w ≠ apiOrigin

theorem portsRewritten_eq_of_not_stray {s : PyStr} (h : ¬ StrayPortUrl s) : portsRewritten s = s := by
  induction s using scan_induction portUrl_proper with
  | nil => rfl
  | skip c cs hm ih =>
    rw [portsRewritten,replaceAll_cons hm]
    refine congrArg (c :: ·) (ih ?_)
    rintro ⟨a,scheme,w,b,rfl,hrest⟩
    exact h ⟨c :: a,scheme,w,b,rfl,hrest⟩
  | step s r hm ih =>
    rw [portsRewritten,replaceAll_match portUrl_proper hm]
    obtain ⟨scheme,hscheme,t,rfl,ht⟩ := portUrl_eq_some hm
    obtain ⟨w,rfl,hw,hslash,-⟩ := afterPort_eq_some ht
    have horigin : scheme ++ w = apiOrigin := by
      by_contra hne
      exact h ⟨[],scheme,w,r,rfl,hscheme,hw,hslash,hne⟩
    have hr : portsRewritten r = r := by
      apply ih
      rintro ⟨a,scheme',w',b,rfl,hrest⟩
      exact h ⟨scheme ++ w ++ a,scheme',w',b,by simp,hrest⟩
    rw [← List.append_assoc,horigin]
    exact congrArg (apiOrigin ++ ·) hr

/-- No URL with a port begins inside the API's origin. -/
private theorem origin_apart {a scheme t r : PyStr} (hscheme : scheme ∈ schemes) (ha : a ≠ [])
    (hlen : a.length < apiOrigin.length) : apiOrigin ++ r ≠ a ++ (scheme ++ t) := by
  intro h
  have hstart : ∀ scheme ∈ schemes, scheme[0]? = some 104 ∧ scheme[1]? = some 116 ∧ 2 ≤ scheme.length := by decide
  have hinside : ∀ k < 30, 0 < k → (apiOrigin[k]? ≠ some 104 ∨ (k + 1 < 30 ∧ apiOrigin[k+1]? ≠ some 116)) := by decide
  have hthirty : apiOrigin.length = 30 := by decide
  obtain ⟨h0,h1,htwo⟩ := hstart scheme hscheme
  have hget : ∀ k, k < 2 → (apiOrigin ++ r)[a.length + k]? = scheme[k]? := by
    intro k hk
    rw [h,List.getElem?_append_right (by omega),Nat.add_sub_cancel_left,List.getElem?_append_left (by omega)]
  rcases hinside a.length (by omega) (List.length_pos_of_ne_nil ha) with hne | ⟨hlt,hne⟩
  · have := hget 0 (by omega)
    rw [Nat.add_zero,List.getElem?_append_left (by omega),h0] at this
    exact hne this
  · have := hget 1 (by omega)
    rw [List.getElem?_append_left (by omega),h1] at this
    exact hne this

/-- A URL with a port that begins where the API's origin does is the origin. -/
private theorem origin_at_start {scheme w b r : PyStr} (hscheme : scheme ∈ schemes) (hw : Ported w)
    (hlast : ∀ b, apiHost ++ r = w ++ b → w.length ≤ apiHost.length) (h : apiOrigin ++ r = scheme ++ (w ++ b)) :
    scheme ++ w = apiOrigin := by
  rcases (mem_schemes_iff scheme).mp hscheme with rfl | rfl
  · rw [apiOrigin_eq,List.append_assoc] at h
    have hhost := List.append_cancel_left h
    have hlen := hlast b hhost
    have hprefix : w <+: apiHost :=
      List.prefix_of_prefix_length_le (hhost ▸ List.prefix_append w b) (List.prefix_append _ _) hlen
    have honly : ∀ k ≤ 22, (∃ port ∈ ports, port <:+ apiHost.take k) → k = 22 := by decide
    obtain ⟨x,-,port,hport,rfl⟩ := hw
    have htake := List.prefix_iff_eq_take.mp hprefix
    have hk := honly _ hlen ⟨port,hport,htake ▸ List.suffix_append x port⟩
    rw [apiOrigin_eq,htake,hk]
    rfl
  · rw [apiOrigin_eq,List.append_assoc,https_append,http_append] at h
    exact absurd h (https_ne_http _ _)

theorem not_stray_of_portsRewritten_eq {s : PyStr} (h : portsRewritten s = s) : ¬ StrayPortUrl s := by
  induction s using scan_induction portUrl_proper with
  | nil =>
    rintro ⟨a,scheme,w,b,hs,-,hw,-,-⟩
    have := hw.length
    have := congrArg List.length hs
    simp only [List.length_nil,List.length_append] at this
    omega
  | skip c cs hm ih =>
    rw [portsRewritten,replaceAll_cons hm] at h
    rintro ⟨a,scheme,w,b,hs,hscheme,hw,hslash,hne⟩
    cases a with
    | nil =>
      rw [hs,List.nil_append,portUrl_scheme hscheme] at hm
      exact afterPort_ne_none hw hslash b hm
    | cons d a => exact ih (List.cons.inj h).2 ⟨a,scheme,w,b,(List.cons.inj hs).2,hscheme,hw,hslash,hne⟩
  | step s r hm ih =>
    rw [portsRewritten,replaceAll_match portUrl_proper hm] at h
    obtain ⟨scheme,hscheme,t,rfl,ht⟩ := portUrl_eq_some hm
    obtain ⟨w,rfl,hw,hslash,hlast⟩ := afterPort_eq_some ht
    rcases (mem_schemes_iff scheme).mp hscheme with rfl | rfl
    · rw [apiOrigin_eq,List.append_assoc] at h
      obtain ⟨rfl,hr⟩ := (apiHost_append_iff hslash r).mp (List.append_cancel_left h)
      rintro ⟨a,scheme,w,b,hs,hscheme,hw',hslash',hne⟩
      have hs' : apiOrigin ++ r = a ++ (scheme ++ (w ++ b)) := by
        rw [← hs,apiOrigin_eq,List.append_assoc]
      by_cases ha : a = []
      · subst ha
        exact hne (origin_at_start hscheme hw' (fun b' hb' => hlast w b' hb' hw' hslash') hs')
      · by_cases hlen : a.length < apiOrigin.length
        · exact origin_apart hscheme ha hlen hs'
        · obtain ⟨a',rfl⟩ := List.prefix_of_prefix_length_le (List.prefix_append apiOrigin r)
            (hs' ▸ List.prefix_append a _) (by omega)
          rw [List.append_assoc] at hs'
          exact ih hr ⟨a',scheme,w,b,List.append_cancel_left hs',hscheme,hw',hslash',hne⟩
    · rw [apiOrigin_eq,List.append_assoc,https_append,http_append] at h
      exact absurd h (https_ne_http _ _)

theorem portsRewritten_eq_iff (s : PyStr) : portsRewritten s = s ↔ ¬ StrayPortUrl s :=
  ⟨not_stray_of_portsRewritten_eq,portsRewritten_eq_of_not_stray⟩

private theorem portsRewritten_slash_eq_iff (s : PyStr) : portsRewritten (47 :: s) = 47 :: s ↔ ¬ StrayPortUrl s := by
  rw [portsRewritten,replaceAll_slash,List.cons.injEq,portsRewritten_eq_iff]
  exact and_iff_right rfl

/-! The URLs of requests. -/

/-- The three forms of a URL, each cut where a browser cuts it. -/
inductive RequestUrl where
  | absolute (secure : Bool) (authority rest : PyStr) (h : 47 ∉ authority)
  | rootRelative (rest : PyStr) (h : rest.head? ≠ some 47)
  | protocolRelative (host rest : PyStr) (h : 47 ∉ host)

def RequestUrl.text : RequestUrl → PyStr
  | .absolute secure authority rest _ => (if secure then py "https://" else py "http://") ++ (authority ++ 47 :: rest)
  | .rootRelative rest _ => 47 :: rest
  | .protocolRelative host rest _ => py "//" ++ (host ++ 47 :: rest)

/-- The authority a browser reads in a URL. -/
def authorityOf (url : PyStr) : Option PyStr :=
  if py "https://" <+: url then some ((url.drop 8).takeWhile (fun c => c ≠ 47))
  else if py "http://" <+: url then some ((url.drop 7).takeWhile (fun c => c ≠ 47))
  else if py "//" <+: url then some ((url.drop 2).takeWhile (fun c => c ≠ 47))
  else none

/-- The request still asks for the same: only the authority may have become the API's, and the
host of a protocol-relative URL stays. -/
def RequestUrl.Kept (result : PyStr) : RequestUrl → Prop
  | .absolute _ authority rest _ =>
    ∃ authority₂, (authority₂ = authority ∨ authority₂ = apiHost) ∧ result = py "https://" ++ (authority₂ ++ 47 :: rest)
  | .rootRelative rest _ => result = 47 :: rest ∨ result = apiOrigin ++ 47 :: rest
  | .protocolRelative host _ _ => authorityOf result = some host

/-- One of the ports stands somewhere in the text, not at its start. -/
def Marked (s : PyStr) : Prop := ∃ w v, s = w ++ v ∧ Ported w

/-- The redirection applies, and puts the API's host where nothing else of an authority remains. -/
def HostReplaced (authority : PyStr) : Prop :=
  dataHost <:+: authority ∧ (Ported authority ∨ dataHost <:+ authority ∧ ¬ dataHost <:+: authority.dropLast)

/-- The authority and the rest as the port pattern leaves them alone, or takes the authority as a whole. -/
def PortsHarmless (authority rest : PyStr) : Prop :=
  ¬ Marked authority ∧ ¬ StrayPortUrl (authority ++ 47 :: rest) ∨
    Ported authority ∧ ¬ StrayPortUrl rest ∨
    ∃ v, authority = apiHost ++ v ∧ (∀ port ∈ ports, ¬ port <:+: v) ∧ ¬ StrayPortUrl (v ++ 47 :: rest)

def RequestUrl.Undisturbed (a : RequestUrl) : Prop :=
  match a with
  | .absolute _ authority rest _ =>
    (dataHost <:+: a.text ∧ mentionsApi a.text = true → HostReplaced authority ∧ ¬ StrayPortUrl rest) ∧
      (¬ (dataHost <:+: a.text ∧ mentionsApi a.text = true) → PortsHarmless authority rest)
  | .rootRelative rest _ => ¬ (dataHost <:+: a.text ∧ mentionsApi a.text = true) ∧ ¬ StrayPortUrl rest
  | .protocolRelative host rest _ =>
    (mentionsApi a.text = true → host = apiHost) ∧
      (mentionsApi a.text = false → ¬ ∃ u, host = u ++ py "http:" ∧ PortFollows rest)

/-! Relative URLs. -/

private theorem rootRelative_kept_iff (rest : PyStr) (h : rest.head? ≠ some 47) :
    (RequestUrl.rootRelative rest h).Kept (fetchUrl (47 :: rest)) ↔ (RequestUrl.rootRelative rest h).Undisturbed := by
  have hpage : ∀ s : PyStr, apiOrigin ++ s ≠ 47 :: rest := fun s hs =>
    absurd (congrArg List.head? hs) (by decide : some (104 : CodePoint) ≠ some 47)
  simp only [RequestUrl.Kept,RequestUrl.Undisturbed,RequestUrl.text]
  cases hm : mentionsApi (47 :: rest) with
  | false =>
    rw [fetchUrl_slash_of_not_mentions hm,← replaceAll_slash]
    have hapi : portsRewritten (47 :: rest) ≠ apiOrigin ++ 47 :: rest := by
      rw [portsRewritten,replaceAll_slash]
      intro hs
      exact absurd (congrArg List.head? hs) (by decide : some (47 : CodePoint) ≠ some 104)
    rw [or_iff_left hapi]
    simpa using portsRewritten_slash_eq_iff rest
  | true =>
    obtain ⟨s,hs,hfetch⟩ := fetchUrl_slash_of_mentions hm
    rw [hfetch,or_iff_right (hpage _),List.append_cancel_left_eq]
    rcases redirectData_cases (47 :: rest) with ⟨hno,heq⟩ | ⟨-,a,b,hab,heq,-⟩
    · obtain rfl : s = rest := (List.cons.inj (hs.symm.trans heq)).2
      rw [← replaceAll_slash]
      have hno' : ¬ (dataHost <:+: 47 :: s ∧ true = true) := fun hh => hno ⟨hh.1,hm⟩
      rw [and_iff_right hno']
      exact portsRewritten_slash_eq_iff s
    · -- nothing puts the letter back
      refine iff_of_false (fun hback => ?_) (fun hh => hh.1 ⟨hab ▸ ⟨a,b,rfl⟩,rfl⟩)
      have hle : (portsRewritten s).count 97 ≤ s.count 97 := count_replaceAll_le portUrl_proper (by decide) s
      have hlt := count_redirected_lt a b
      rw [← heq,hs,← hab,List.count_cons_of_ne (by decide),List.count_cons_of_ne (by decide)] at hlt
      have hsame : (portsRewritten s).count 97 = rest.count 97 := congrArg (List.count 97) (List.cons.inj hback).2
      omega

private theorem takeWhile_slash {w : PyStr} (hw : 47 ∉ w) (x : PyStr) :
    (w ++ 47 :: x).takeWhile (fun c => c ≠ 47) = w := by
  rw [List.takeWhile_append_of_pos (fun c hc => by simpa using ne_of_mem_of_not_mem hc hw)]
  simp

private theorem protocolRelative_kept_iff (host rest : PyStr) (h : 47 ∉ host) :
    (RequestUrl.protocolRelative host rest h).Kept (fetchUrl (py "//" ++ (host ++ 47 :: rest))) ↔
      (RequestUrl.protocolRelative host rest h).Undisturbed := by
  have htext : py "//" ++ (host ++ 47 :: rest) = 47 :: 47 :: (host ++ 47 :: rest) := rfl
  simp only [RequestUrl.Kept,RequestUrl.Undisturbed,RequestUrl.text,htext]
  cases hm : mentionsApi (47 :: 47 :: (host ++ 47 :: rest)) with
  | true =>
    obtain ⟨s,-,hfetch⟩ := fetchUrl_slash_of_mentions hm
    have hauthority : authorityOf (fetchUrl (47 :: 47 :: (host ++ 47 :: rest))) = some apiHost := by
      rw [hfetch,apiOrigin_eq,List.append_assoc,authorityOf,if_pos (List.prefix_append _ _)]
      exact congrArg some (takeWhile_slash (by decide) _)
    rw [hauthority]
    simp [eq_comm]
  | false =>
    obtain ⟨w,x,hseg,hw,-,hcase⟩ := portsRewritten_segment h rest
    have hauthority : authorityOf (fetchUrl (47 :: 47 :: (host ++ 47 :: rest))) = some w := by
      have hfetch : fetchUrl (47 :: 47 :: (host ++ 47 :: rest)) = 47 :: 47 :: (w ++ 47 :: x) := by
        rw [fetchUrl_slash_of_not_mentions hm,replaceAll_slash,← hseg]
      rw [hfetch,authorityOf,if_neg,if_neg,if_pos]
      · exact congrArg some (takeWhile_slash hw x)
      · exact List.prefix_append (py "//") _
      · exact not_prefix_of_head (by decide : (py "http://").head? = some 104) (by decide) _
      · exact not_prefix_of_head (by decide : (py "https://").head? = some 104) (by decide) _
    rw [hauthority,Option.some.injEq]
    rcases hcase with ⟨rfl,hnot⟩ | ⟨u,rfl,rfl,hfollows⟩
    · exact iff_of_true rfl ⟨fun hh => absurd hh (by decide),fun _ => hnot⟩
    · refine iff_of_false (fun heq => ?_) (fun hh => hh.2 rfl ⟨u,rfl,hfollows⟩)
      exact absurd (List.append_cancel_left heq) (by decide)

/-! Absolute URLs. -/

theorem afterPort_segment {s : PyStr} (hs : 47 ∉ s) (z : PyStr) :
    (¬ Marked s ∧ afterPort (s ++ 47 :: z) = none) ∨ ∃ w v, s = w ++ v ∧ Ported w ∧
      (∀ w' v', s = w' ++ v' → Ported w' → w'.length ≤ w.length) ∧ afterPort (s ++ 47 :: z) = some (v ++ 47 :: z) := by
  cases h : afterPort (s ++ 47 :: z) with
  | none =>
    refine .inl ⟨?_,rfl⟩
    rintro ⟨w,v,rfl,hw⟩
    rw [List.mem_append,not_or] at hs
    rw [List.append_assoc] at h
    exact afterPort_ne_none hw hs.1 (v ++ 47 :: z) h
  | some r =>
    obtain ⟨w,heq,hw,hslash,hlast⟩ := afterPort_eq_some h
    obtain ⟨v,rfl,rfl⟩ := append_of_not_mem hslash heq
    refine .inr ⟨w,v,rfl,hw,fun w' v' hs' hw' => ?_,rfl⟩
    refine hlast w' (v' ++ 47 :: z) (by rw [hs',List.append_assoc]) hw' (fun hmem => hs ?_)
    rw [hs']
    exact List.mem_append_left _ hmem

theorem portsRewritten_https_of_none {t : PyStr} (h : afterPort t = none) :
    portsRewritten (py "https://" ++ t) = py "https://" ++ portsRewritten t :=
  replaceAll_https apiOrigin h

theorem portsRewritten_https_of_some {t r : PyStr} (h : afterPort t = some r) :
    portsRewritten (py "https://" ++ t) = py "https://" ++ (apiHost ++ portsRewritten r) := by
  rw [← List.append_assoc,← apiOrigin_eq]
  exact replaceAll_match portUrl_proper ((portUrl_https t).trans h)

/-- Nothing is left of an authority only if nothing was there. -/
private theorem portsRewritten_eq_slash_iff {v : PyStr} (hv : 47 ∉ v) (rest : PyStr) :
    portsRewritten (v ++ 47 :: rest) = 47 :: rest ↔ v = [] ∧ ¬ StrayPortUrl rest := by
  constructor
  · intro h
    obtain ⟨w,x,hseg,hw,-,hcase⟩ := portsRewritten_segment hv rest
    have hsplit : w ++ 47 :: x = [] ++ 47 :: rest := hseg.symm.trans h
    obtain ⟨rfl,-⟩ := (append_sep_inj hw (by simp)).mp hsplit
    rcases hcase with ⟨rfl,-⟩ | ⟨u,-,hu,-⟩
    · exact ⟨rfl,(portsRewritten_slash_eq_iff rest).mp h⟩
    · exact absurd (List.append_eq_nil_iff.mp hu.symm).2 (by decide)
  · rintro ⟨rfl,h⟩
    exact (portsRewritten_slash_eq_iff rest).mpr h

/-- A port at the end of a text lies wholly behind a letter that it can only have at its own end. -/
private theorem port_behind {x y : PyStr} {d : CodePoint} (hd : ∀ port ∈ ports, d ∉ port.dropLast)
    (h : Ported (x ++ [d] ++ y)) (hy : y ≠ []) : ∃ y₀, ∃ port ∈ ports, y = y₀ ++ port := by
  obtain ⟨x',-,port,hport,heq⟩ := h
  rcases List.append_eq_append_iff.mp heq with ⟨u,rfl,rfl⟩ | ⟨u,hu,hp⟩
  · exact ⟨u,port,hport,rfl⟩
  · rcases List.eq_nil_or_concat u with rfl | ⟨u,e,rfl⟩
    · exact ⟨[],port,hport,hp.symm⟩
    · rw [List.concat_eq_append,← List.append_assoc] at hu
      obtain rfl : d = e := by simpa using (List.append_inj' hu rfl).2
      refine absurd ?_ (hd port hport)
      rw [hp,List.dropLast_append_of_ne_nil hy]
      simp

private theorem apiHost_marks {authority v : PyStr} (h : authority = apiHost ++ v) : Marked authority :=
  ⟨apiHost,v,h,ported_apiHost⟩

section Absolute
variable {authority rest : PyStr} (hslash : 47 ∉ authority)

/-- The outcomes for the authority: it stays, or the API's takes its place. -/
private theorem kept_iff (result : PyStr) :
    (∃ authority₂, (authority₂ = authority ∨ authority₂ = apiHost) ∧
        py "https://" ++ result = py "https://" ++ (authority₂ ++ 47 :: rest)) ↔
      result = authority ++ 47 :: rest ∨ result = apiHost ++ 47 :: rest := by
  constructor
  · rintro ⟨_,rfl | rfl,h⟩
    · exact .inl (List.append_cancel_left h)
    · exact .inr (List.append_cancel_left h)
  · rintro (rfl | rfl)
    · exact ⟨authority,.inl rfl,rfl⟩
    · exact ⟨apiHost,.inr rfl,rfl⟩

include hslash in
private theorem unmarked_kept_iff (hmark : ¬ Marked authority) :
    (portsRewritten (authority ++ 47 :: rest) = authority ++ 47 :: rest ∨
        portsRewritten (authority ++ 47 :: rest) = apiHost ++ 47 :: rest) ↔ PortsHarmless authority rest := by
  have hother : portsRewritten (authority ++ 47 :: rest) ≠ apiHost ++ 47 :: rest := by
    intro h
    obtain ⟨w,x,hseg,hw,-,hcase⟩ := portsRewritten_segment hslash rest
    obtain ⟨rfl,-⟩ := (append_sep_inj hw (by decide)).mp (hseg.symm.trans h)
    rcases hcase with ⟨heq,-⟩ | ⟨u,-,hu,-⟩
    · exact hmark (apiHost_marks (v := []) (by rw [List.append_nil,heq]))
    · exact absurd ⟨u,hu.symm⟩ (by decide : ¬ py "https:" <:+ apiHost)
  rw [or_iff_left hother,portsRewritten_eq_iff]
  constructor
  · intro h
    exact .inl ⟨hmark,h⟩
  · rintro (⟨-,h⟩ | ⟨hport,-⟩ | ⟨v,hv,-⟩)
    · exact h
    · exact absurd ⟨authority,[],by simp,hport⟩ hmark
    · exact absurd (apiHost_marks hv) hmark

include hslash in
private theorem marked_kept_iff {w v : PyStr} (heq : authority = w ++ v) (hw : Ported w)
    (hlast : ∀ w' v', authority = w' ++ v' → Ported w' → w'.length ≤ w.length) :
    (apiHost ++ portsRewritten (v ++ 47 :: rest) = authority ++ 47 :: rest ∨
        apiHost ++ portsRewritten (v ++ 47 :: rest) = apiHost ++ 47 :: rest) ↔ PortsHarmless authority rest := by
  have hparts := hslash
  rw [heq,List.mem_append,not_or] at hparts
  have hstays : apiHost ++ portsRewritten (v ++ 47 :: rest) = authority ++ 47 :: rest ↔
      w = apiHost ∧ ¬ StrayPortUrl (v ++ 47 :: rest) := by
    rw [heq,List.append_assoc,apiHost_append_iff hparts.1,portsRewritten_eq_iff]
  rw [hstays,List.append_cancel_left_eq,portsRewritten_eq_slash_iff hparts.2]
  constructor
  · rintro (⟨rfl,hstray⟩ | ⟨rfl,hstray⟩)
    · refine .inr (.inr ⟨v,heq,fun port hport hin => ?_,hstray⟩)
      obtain ⟨y,z,rfl⟩ := hin
      have hne : apiHost ++ y ≠ [] := fun hnil => absurd (List.append_eq_nil_iff.mp hnil).1 (by decide)
      have hlonger := hlast (apiHost ++ y ++ port) z (by rw [heq]; simp) ⟨apiHost ++ y,hne,port,hport,rfl⟩
      rw [List.length_append,List.length_append,length_of_mem_ports port hport] at hlonger
      omega
    · rw [List.append_nil] at heq
      exact .inr (.inl ⟨heq ▸ hw,hstray⟩)
  · rintro (⟨hmark,-⟩ | ⟨hport,hstray⟩ | ⟨v',hv',hfree,hstray⟩)
    · exact absurd ⟨w,v,heq,hw⟩ hmark
    · have hlen := hlast authority [] (by simp) hport
      rw [heq,List.length_append] at hlen
      exact .inr ⟨List.length_eq_zero_iff.mp (by omega),hstray⟩
    · left
      -- the last port is the API's own, since none is in what follows
      have hlen := hlast apiHost v' hv' ported_apiHost
      obtain ⟨y,rfl⟩ : apiHost <+: w := List.prefix_of_prefix_length_le (hv' ▸ List.prefix_append apiHost v')
        (heq ▸ List.prefix_append w v) hlen
      have hrest : v' = y ++ v := by
        rw [hv',List.append_assoc] at heq
        exact List.append_cancel_left heq
      by_cases hy : y = []
      · subst hy
        rw [hrest] at hstray
        exact ⟨by simp,hstray⟩
      · rw [apiHost_last] at hw
        obtain ⟨y₀,port,hport,rfl⟩ := port_behind (by decide) hw hy
        exact absurd ⟨y₀,v,by rw [hrest]⟩ (hfree port hport)

include hslash in
private theorem harmless_iff :
    (∃ authority₂, (authority₂ = authority ∨ authority₂ = apiHost) ∧
        portsRewritten (py "https://" ++ (authority ++ 47 :: rest)) = py "https://" ++ (authority₂ ++ 47 :: rest)) ↔
      PortsHarmless authority rest := by
  rcases afterPort_segment hslash rest with ⟨hmark,hnone⟩ | ⟨w,v,heq,hw,hlast,hsome⟩
  · rw [portsRewritten_https_of_none hnone,kept_iff,unmarked_kept_iff hslash hmark]
  · rw [portsRewritten_https_of_some hsome,kept_iff,marked_kept_iff hslash heq hw hlast]

/-- The data host had the letter a, and nothing puts it back. -/
private theorem authority_gone {a y v : PyStr} (hslash : 47 ∉ a ++ dataHost ++ (y ++ v)) :
    apiHost ++ portsRewritten (v ++ 47 :: rest) ≠ a ++ dataHost ++ (y ++ v) ++ 47 :: rest := by
  intro h
  have hv : 47 ∉ v := fun hmem => hslash (List.mem_append_right _ (List.mem_append_right _ hmem))
  obtain ⟨v',x,hseg,hv',-,hcase⟩ := portsRewritten_segment hv rest
  have hleft : 47 ∉ apiHost ++ v' := List.not_mem_append (by decide) hv'
  rw [hseg,← List.append_assoc] at h
  have hcount := congrArg (List.count 97) ((append_sep_inj hleft hslash).mp h).1
  have hsame : v'.count 97 = v.count 97 := by
    rcases hcase with ⟨rfl,-⟩ | ⟨u,rfl,rfl,-⟩
    · rfl
    · rw [List.count_append,List.count_append]
      rfl
  have hapi : apiHost.count 97 = 0 := by decide
  have hdata : dataHost.count 97 = 2 := by decide
  simp only [List.count_append] at hcount
  omega

/-- What is left of an authority behind the last port is empty just when the old authority ended
with the data host or with a port. -/
private theorem hostReplaced_iff {a y v : PyStr} (hfirst : ¬ dataHost <:+: (a ++ dataHost).dropLast)
    (hw : Ported (a ++ apiHost ++ y))
    (hlast : ∀ w' v', a ++ apiHost ++ (y ++ v) = w' ++ v' → Ported w' → w'.length ≤ (a ++ apiHost ++ y).length) :
    v = [] ↔ HostReplaced (a ++ dataHost ++ (y ++ v)) := by
  constructor
  · rintro rfl
    refine ⟨⟨a,y ++ [],rfl⟩,?_⟩
    rw [List.append_nil]
    by_cases hy : y = []
    · subst hy
      rw [List.append_nil]
      exact .inr ⟨List.suffix_append a dataHost,hfirst⟩
    · rw [apiHost_last,← List.append_assoc] at hw
      obtain ⟨y₀,port,hport,rfl⟩ := port_behind (by decide) hw hy
      refine .inl ⟨a ++ dataHost ++ y₀,?_,port,hport,by simp⟩
      intro hnil
      exact absurd (List.append_eq_nil_iff.mp (List.append_eq_nil_iff.mp hnil).1).2 dataHost_ne_nil
  · rintro ⟨-,hport | ⟨-,honce⟩⟩
    · by_cases hq : y ++ v = []
      · exact (List.append_eq_nil_iff.mp hq).2
      · have hdata : dataHost = py "data.thintuit.co" ++ [109] := by decide
        rw [hdata,← List.append_assoc a] at hport
        obtain ⟨y₀,port,hmem,hyv⟩ := port_behind (by decide) hport hq
        have hported : Ported (a ++ apiHost ++ (y ++ v)) := by
          refine ⟨a ++ apiHost ++ y₀,?_,port,hmem,by rw [hyv]; simp⟩
          intro hnil
          exact absurd (List.append_eq_nil_iff.mp (List.append_eq_nil_iff.mp hnil).1).2 (by decide)
        have hlen := hlast _ [] (by rw [List.append_nil]) hported
        simp only [List.length_append] at hlen
        exact List.length_eq_zero_iff.mp (by omega)
    · by_contra hv
      have hq : y ++ v ≠ [] := fun hnil => hv (List.append_eq_nil_iff.mp hnil).2
      rw [List.dropLast_append_of_ne_nil hq] at honce
      exact honce ⟨a,(y ++ v).dropLast,rfl⟩

/-- The data host was in the authority, between `a` and `q`. -/
private theorem replaced_iff {a q : PyStr} (hslash : 47 ∉ a ++ dataHost ++ q)
    (hfirst : ¬ dataHost <:+: (a ++ dataHost).dropLast) :
    (∃ authority₂, (authority₂ = a ++ dataHost ++ q ∨ authority₂ = apiHost) ∧
        portsRewritten (py "https://" ++ (a ++ apiHost ++ q ++ 47 :: rest)) = py "https://" ++ (authority₂ ++ 47 :: rest)) ↔
      HostReplaced (a ++ dataHost ++ q) ∧ ¬ StrayPortUrl rest := by
  have hparts := hslash
  rw [List.mem_append,List.mem_append,not_or,not_or] at hparts
  have hnew : 47 ∉ a ++ apiHost ++ q := List.not_mem_append (List.not_mem_append hparts.1.1 (by decide)) hparts.2
  rcases afterPort_segment hnew rest with ⟨hmark,-⟩ | ⟨w,v,heq,hw,hlast,hsome⟩
  · exact absurd ⟨a ++ apiHost,q,rfl,ported_apiHost.append_left a⟩ hmark
  have hlen := hlast (a ++ apiHost) q rfl (ported_apiHost.append_left a)
  obtain ⟨y,rfl⟩ : a ++ apiHost <+: w := List.prefix_of_prefix_length_le (List.prefix_append _ q)
    (heq ▸ List.prefix_append w v) hlen
  obtain rfl : q = y ++ v := List.append_cancel_left (heq.trans (List.append_assoc ..))
  have hv : 47 ∉ v := fun h => hparts.2 (List.mem_append_right y h)
  rw [portsRewritten_https_of_some hsome,kept_iff,or_iff_right (authority_gone hslash),List.append_cancel_left_eq,
    portsRewritten_eq_slash_iff hv,hostReplaced_iff hfirst hw hlast]

/-- The data host was behind the authority: the rest of the URL has changed for good. -/
private theorem rest_gone (hslash : 47 ∉ authority) {a b : PyStr} :
    ¬ ∃ authority₂, (authority₂ = authority ∨ authority₂ = apiHost) ∧
      portsRewritten (py "https://" ++ (authority ++ 47 :: (a ++ apiHost ++ b))) =
        py "https://" ++ (authority₂ ++ 47 :: (a ++ dataHost ++ b)) := by
  rintro ⟨authority₂,hor,h⟩
  have hslash₂ : 47 ∉ authority₂ := by
    rcases hor with rfl | rfl
    · exact hslash
    · decide
  have hlt := count_redirected_lt a b
  obtain ⟨w,x,heq,hw,hle⟩ : ∃ w x, portsRewritten (py "https://" ++ (authority ++ 47 :: (a ++ apiHost ++ b))) =
      py "https://" ++ (w ++ 47 :: x) ∧ 47 ∉ w ∧ x.count 97 ≤ (a ++ apiHost ++ b).count 97 := by
    rcases afterPort_segment hslash (a ++ apiHost ++ b) with ⟨-,hnone⟩ | ⟨u,v,rfl,-,-,hsome⟩
    · obtain ⟨w,x,hseg,hw,hle,-⟩ := portsRewritten_segment hslash (a ++ apiHost ++ b)
      exact ⟨w,x,by rw [portsRewritten_https_of_none hnone,hseg],hw,hle⟩
    · have hv : 47 ∉ v := fun hmem => hslash (List.mem_append_right u hmem)
      obtain ⟨w,x,hseg,hw,hle,-⟩ := portsRewritten_segment hv (a ++ apiHost ++ b)
      exact ⟨apiHost ++ w,x,by rw [portsRewritten_https_of_some hsome,hseg,List.append_assoc],
        List.not_mem_append (by decide) hw,hle⟩
  rw [heq] at h
  obtain ⟨-,rfl⟩ := (append_sep_inj hw hslash₂).mp (List.append_cancel_left h)
  omega

end Absolute

private theorem secureUrl_absolute (secure : Bool) (t : PyStr) :
    secureUrl ((if secure then py "https://" else py "http://") ++ t) = py "https://" ++ t := by
  cases secure with
  | true => exact if_neg (not_http_https t)
  | false => rw [if_neg (by decide),http_append,https_append,secureUrl_http]

/-- The upgrade to `https` changes nothing about the words of the API or the data host. -/
private theorem words_absolute (secure : Bool) (t : PyStr) :
    (dataHost <:+: (if secure then py "https://" else py "http://") ++ t ↔ dataHost <:+: py "https://" ++ t) ∧
      mentionsApi ((if secure then py "https://" else py "http://") ++ t) = mentionsApi (py "https://" ++ t) := by
  cases secure with
  | true => exact ⟨Iff.rfl,rfl⟩
  | false =>
    refine ⟨?_,?_⟩
    · rw [if_neg (by decide),dataHost_front_iff (by decide),dataHost_front_iff (by decide)]
    · rw [if_neg (by decide),http_append,https_append,mentionsApi_front (by decide : 47 ∉ py "http:"),
        mentionsApi_front (by decide : 47 ∉ py "https:")]

private theorem absolute_kept_iff (secure : Bool) (authority rest : PyStr) (h : 47 ∉ authority) :
    (RequestUrl.absolute secure authority rest h).Kept (fetchUrl (RequestUrl.absolute secure authority rest h).text) ↔
      (RequestUrl.absolute secure authority rest h).Undisturbed := by
  have haway : ∀ s : PyStr, addOrigin (py "https://" ++ s) = py "https://" ++ s := fun s =>
    if_neg (fun hs => not_slash_https s hs.1)
  obtain ⟨hdata,hwords⟩ := words_absolute secure (authority ++ 47 :: rest)
  simp only [RequestUrl.Kept,RequestUrl.Undisturbed,RequestUrl.text]
  rw [hdata,hwords,fetchUrl,secureUrl_absolute,rewritePorts_eq]
  rcases redirectData_cases (py "https://" ++ (authority ++ 47 :: rest)) with ⟨hno,heq⟩ | ⟨hm,a,b,hab,heq,hfirst⟩
  · rw [heq,haway,harmless_iff h]
    exact ⟨fun hh => ⟨fun hyes => absurd hyes hno,fun _ => hh⟩,fun hh => hh.2 hno⟩
  · have hyes : dataHost <:+: py "https://" ++ (authority ++ 47 :: rest) ∧
        mentionsApi (py "https://" ++ (authority ++ 47 :: rest)) = true := ⟨hab ▸ ⟨a,b,rfl⟩,hm⟩
    have hcond : ∀ P Q : Prop, ((dataHost <:+: py "https://" ++ (authority ++ 47 :: rest) ∧
        mentionsApi (py "https://" ++ (authority ++ 47 :: rest)) = true → P) ∧
        (¬ (dataHost <:+: py "https://" ++ (authority ++ 47 :: rest) ∧
          mentionsApi (py "https://" ++ (authority ++ 47 :: rest)) = true) → Q)) ↔ P :=
      fun P Q => ⟨fun hh => hh.1 hyes,fun hp => ⟨fun _ => hp,fun hn => absurd hyes hn⟩⟩
    rw [hcond,heq]
    -- the first data host stands behind the scheme
    rw [List.append_assoc] at hab
    obtain ⟨a,rfl,htail⟩ : ∃ a', a = py "https://" ++ a' ∧ authority ++ 47 :: rest = a' ++ (dataHost ++ b) :=
      append_of_not_mem (by decide : (100 : CodePoint) ∉ py "https://") hab.symm
    have hfirst' : ¬ dataHost <:+: (a ++ dataHost).dropLast := by
      rw [List.append_assoc,List.dropLast_append_of_ne_nil (by simp [dataHost_ne_nil])] at hfirst
      exact fun hin => hfirst (hin.trans (List.suffix_append _ _).isInfix)
    rw [List.append_assoc,List.append_assoc,haway]
    by_cases hslash : 47 ∈ a
    · -- behind the authority
      obtain ⟨x,y,rfl,hx⟩ := List.eq_append_cons_of_mem hslash
      rw [List.append_assoc,List.cons_append] at htail
      obtain ⟨rfl,hrest⟩ := (append_sep_inj h hx).mp htail
      obtain rfl : rest = y ++ dataHost ++ b := hrest.trans (List.append_assoc ..).symm
      refine iff_of_false ?_ (fun hh => hfirst' ?_)
      · have htext : authority ++ 47 :: y ++ (apiHost ++ b) = authority ++ 47 :: (y ++ apiHost ++ b) := by simp
        rw [htext]
        exact rest_gone h
      · rw [List.dropLast_append_of_ne_nil dataHost_ne_nil,List.append_assoc]
        exact hh.1.1.trans (List.prefix_append _ _).isInfix
    · -- inside the authority
      have hfront : 47 ∉ a ++ dataHost := List.not_mem_append hslash (by decide)
      have hsplit : authority ++ 47 :: rest = a ++ dataHost ++ b := htail.trans (List.append_assoc ..).symm
      obtain ⟨q,rfl,rfl⟩ := append_of_not_mem hfront hsplit
      have htext : a ++ (apiHost ++ (q ++ 47 :: rest)) = a ++ apiHost ++ q ++ 47 :: rest := by simp
      rw [htext]
      exact replaced_iff h hfirst'

theorem kept_iff_undisturbed (a : RequestUrl) : a.Kept (fetchUrl a.text) ↔ a.Undisturbed := by
  cases a with
  | absolute secure authority rest h => exact absolute_kept_iff secure authority rest h
  | rootRelative rest h => exact rootRelative_kept_iff rest h
  | protocolRelative host rest h => exact protocolRelative_kept_iff host rest h

/-- A port behind the data host ends up in a broken authority, and the page for registration asks
the API's origin for a path that begins with its own host. -/
theorem destination_not_kept :
    fetchUrl (py "https://data.thintuit.com:8080/login") = py "https://dev.thintuit.com:41285:8080/login" ∧
      ¬ (RequestUrl.absolute true (py "data.thintuit.com:8080") (py "login") (by decide)).Kept
        (fetchUrl (py "https://data.thintuit.com:8080/login")) ∧
      fetchUrl (py "//dev.thintuit.com/register") = py "https://dev.thintuit.com:41285//dev.thintuit.com/register" ∧
      ¬ (RequestUrl.protocolRelative (py "dev.thintuit.com") (py "register") (by decide)).Kept
        (fetchUrl (py "//dev.thintuit.com/register")) := by
  have hdata : fetchUrl (py "https://data.thintuit.com:8080/login") = py "https://dev.thintuit.com:41285:8080/login" := by
    decide +kernel
  have hpage : fetchUrl (py "//dev.thintuit.com/register") =
      py "https://dev.thintuit.com:41285//dev.thintuit.com/register" := by decide +kernel
  refine ⟨hdata,?_,hpage,?_⟩
  · rw [hdata]
    rintro ⟨_,rfl | rfl,h⟩
    · exact absurd h (by decide +kernel)
    · exact absurd h (by decide +kernel)
  · rw [hpage]
    exact (by decide +kernel : authorityOf (py "https://dev.thintuit.com:41285//dev.thintuit.com/register") ≠
      some (py "dev.thintuit.com"))

end Thintuit.Client
