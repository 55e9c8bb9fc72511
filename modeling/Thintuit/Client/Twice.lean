import Thintuit.Client.PortUrls

/-! Loading the script a second time wraps the wrapper of `fetch`, so that every URL is rewritten
twice. Whether that makes a difference is settled by what the first pass leaves in the URL. -/
namespace Thintuit.Client
open Server Text

theorem replaceAll_apiOrigin_eq (s : PyStr) : replaceAll portUrl apiOrigin s = portsTo apiHost s := by rw [apiOrigin_eq]

theorem fetchUrl_eq (url : PyStr) : fetchUrl url = portsTo apiHost (addOrigin (redirectData (secureUrl url))) := by
  rw [fetchUrl,rewritePorts_eq,replaceAll_apiOrigin_eq]

/-! The steps on a URL that has been through them. -/

theorem portsTo_twice (s : PyStr) : portsTo apiHost (portsTo apiHost s) = portsTo apiHost s := by
  induction s using scan_induction portUrl_proper with
  | nil => rfl
  | skip c cs hm ih =>
    have hskip : portsTo apiHost (c :: cs) = c :: portsTo apiHost cs := replaceAll_cons hm
    have hnone : portUrl (c :: portsTo apiHost cs) = none := by
      rw [portUrl_eq_none_iff] at hm ⊢
      rintro ⟨scheme,w,b,hs,hscheme,hw,hslash⟩
      obtain ⟨hcons,hno⟩ := scheme_eq scheme hscheme
      have hkey : ¬ py "htt" <:+: scheme.tail := fun h => hno (h.subset (by decide))
      rw [hcons] at hs
      obtain ⟨rfl,hrest⟩ := List.cons.inj hs
      obtain ⟨t,rfl⟩ := (prefix_portsTo_iff apiHost hkey cs).mp ⟨_,hrest.symm⟩
      rw [portsTo_front apiHost hno] at hrest
      obtain ⟨v,d,rfl,hd⟩ := digit_of_ported hw
      have hv : 47 ∉ v := fun hmem => hslash (List.mem_append_left _ hmem)
      have hstart : v ++ [d] <+: portsTo apiHost t := ⟨b,(List.append_cancel_left hrest).symm⟩
      obtain ⟨b',rfl⟩ := (prefix_portsTo_iff_of_foreign apiHost hd hv t).mp hstart
      refine hm ⟨scheme,v ++ [d],b',?_,hscheme,hw,hslash⟩
      conv_rhs => rw [hcons]
      rfl
    rw [hskip]
    exact (replaceAll_cons hnone).trans (congrArg (c :: ·) ih)
  | step s r hm ih =>
    have hno : ¬ PortAhead r := by
      obtain ⟨-,-,-,-,-,-,hno⟩ := (portUrl_iff s r).mp hm
      exact hno
    have hmatch : portUrl (py "https://" ++ (apiHost ++ portsTo apiHost r)) = some (portsTo apiHost r) := by
      rw [portUrl_iff]
      exact ⟨_,apiHost,rfl,by decide,ported_apiHost,by decide,fun h => hno ((portAhead_portsTo_iff apiHost r).mp h)⟩
    rw [portsTo_match apiHost hm,portsTo_match apiHost hmatch,ih]

theorem http_portsTo {host s : PyStr} (h : py "http:" <+: portsTo host s) : py "http:" <+: s := by
  cases hm : portUrl s with
  | some r =>
    rw [portsTo_match host hm] at h
    obtain ⟨u,hu⟩ := h
    exact absurd ⟨u,hu⟩ (not_http_https _)
  | none => exact prefix_portsTo_of_none host (by decide : ¬ py "htt" <:+: py "ttp:") hm h

theorem not_http_secureUrl (url : PyStr) : ¬ py "http:" <+: secureUrl url := by
  unfold secureUrl
  split
  · rename_i h
    obtain ⟨t,rfl⟩ := h
    rw [replaceFirst_start (by decide)]
    rintro ⟨u,hu⟩
    exact https_ne_http t u hu.symm
  · assumption

/-- The data host begins with a letter that is not in the way. -/
theorem prefix_redirectData_iff {x : PyStr} (hx : 100 ∉ x) (url : PyStr) : x <+: redirectData url ↔ x <+: url := by
  rcases redirectData_cases url with ⟨-,heq⟩ | ⟨-,a,b,rfl,heq,-⟩
  · rw [heq]
  · have hform : ∀ s : PyStr, x <+: a ++ 100 :: s ↔ x <+: a := by
      intro s
      refine ⟨fun h => ?_,fun h => h.trans (List.prefix_append _ _)⟩
      obtain ⟨u,hu⟩ := h
      obtain ⟨a',rfl,-⟩ := append_of_not_mem hx hu.symm
      exact List.prefix_append _ _
    rw [heq,List.append_assoc,List.append_assoc,apiHost_append,dataHost_append,hform,hform]

theorem not_http_fetchUrl (url : PyStr) : ¬ py "http:" <+: fetchUrl url := by
  intro h
  rw [fetchUrl_eq] at h
  have hadd := http_portsTo h
  unfold addOrigin at hadd
  split at hadd
  · rw [apiOrigin_eq,List.append_assoc] at hadd
    exact not_http_https _ hadd
  · exact not_http_secureUrl url ((prefix_redirectData_iff (by decide) _).mp hadd)

/-! The words that the wrapper looks for, and whether they outlast its last step. -/

/-- Each word cut behind its slash. -/
def landmarks : List (PyStr × PyStr) := ([],dataHost) :: apiWords.map (fun word => ([47],word.tail))

/-- The word stands somewhere outside the hosts that the last step replaces. -/
def Standing (mark : PyStr × PyStr) (s : PyStr) : Prop :=
  ∃ front back, s = front ++ back ∧ mark.1 <:+ front ∧ mark.2 <+: back ∧ ¬ (InHost front ∧ PortAhead back)

section Standing
variable {mark : PyStr × PyStr} (hmark : mark ∈ landmarks)
include hmark

theorem landmark_head : ∃ d, mark.2.head? = some d ∧ d ∉ py "https://" ∧ ∀ port ∈ ports, d ∉ port := by
  have hheads : ∀ mark ∈ landmarks, mark.2.head?.isSome ∧ mark.2.headD 0 ∉ py "https://" ∧
      ∀ port ∈ ports, mark.2.headD 0 ∉ port := by decide
  obtain ⟨hsome,hd⟩ := hheads mark hmark
  obtain ⟨d,hhead⟩ := Option.isSome_iff_exists.mp hsome
  rw [List.headD_eq_head?_getD,hhead] at hd
  exact ⟨d,hhead,hd⟩

theorem landmark_behind_origin (s : PyStr) : mark.1 ++ mark.2 <:+: apiOrigin ++ s ↔ mark.1 ++ mark.2 <:+: s := by
  have hapart : ∀ mark ∈ landmarks, ∀ t ∈ apiOrigin.tails, t ≠ [] → ¬ mark.1 ++ mark.2 <+: t ∧ ¬ t <+: mark.1 ++ mark.2 := by
    decide
  constructor
  · rintro ⟨v,q,h⟩
    rw [List.append_assoc] at h
    obtain ⟨v',-,hs⟩ := occurrence_behind (fun t ht => hapart mark hmark t ((List.mem_tails t apiOrigin).mpr ht)) h.symm
    exact ⟨v',q,by rw [hs,List.append_assoc]⟩
  · intro h
    exact h.trans (List.suffix_append _ _).isInfix

theorem landmark_key : ¬ py "htt" <:+: mark.1 ++ mark.2 := by
  have hkey : ∀ mark ∈ landmarks, ¬ py "htt" <:+: mark.1 ++ mark.2 := by decide
  exact hkey mark hmark

theorem landmark_front : mark.1 = [] ∨ mark.1 = [47] := by
  have hfront : ∀ mark ∈ landmarks, mark.1 = [] ∨ mark.1 = [47] := by decide
  exact hfront mark hmark

private theorem occurs_of_standing {s : PyStr} (h : Standing mark s) : mark.1 ++ mark.2 <:+: portsTo apiHost s := by
  obtain ⟨front,back,rfl,hfront,hback,hnot⟩ := h
  obtain ⟨d,hhead,hd,hports⟩ := landmark_head hmark
  have hhead' : back.head? = some d := by
    obtain ⟨q,rfl⟩ := hback
    rw [List.head?_append,hhead]
    rfl
  obtain ⟨c,hcut,-,hends⟩ := portsTo_cut apiHost hd hports hhead' hnot
  have hbody : mark.2 <+: portsTo apiHost back := by
    rw [prefix_portsTo_iff apiHost (fun h => landmark_key hmark (h.trans (List.suffix_append _ _).isInfix))]
    exact hback
  have hpre : mark.1 <:+ c := by
    rcases landmark_front hmark with h | h
    · rw [h]
      exact List.nil_suffix
    · rw [h] at hfront ⊢
      exact hends hfront
  obtain ⟨x,rfl⟩ := hpre
  obtain ⟨q,hq⟩ := hbody
  exact ⟨x,q,by rw [hcut,← hq]; simp⟩

private theorem standing_of_occurs {s : PyStr} (h : mark.1 ++ mark.2 <:+: portsTo apiHost s) : Standing mark s := by
  obtain ⟨d,hhead,hd,hports⟩ := landmark_head hmark
  induction s using scan_induction portUrl_proper with
  | nil =>
    have hnil := List.append_eq_nil_iff.mp (List.infix_nil.mp h)
    rw [hnil.2] at hhead
    cases hhead
  | skip c cs hm ih =>
    have hskip : portsTo apiHost (c :: cs) = c :: portsTo apiHost cs := replaceAll_cons hm
    rw [hskip,List.infix_cons_iff,← hskip,prefix_portsTo_iff apiHost (landmark_key hmark)] at h
    rcases h with ⟨q,hq⟩ | h
    · refine ⟨mark.1,mark.2 ++ q,by rw [← hq]; simp,List.suffix_refl _,List.prefix_append _ _,fun hh => ?_⟩
      have hlen := hh.1.length
      rcases landmark_front hmark with hpre | hpre <;> simp [hpre] at hlen
    · obtain ⟨front,back,rfl,hfront,hback,hnot⟩ := ih h
      refine ⟨c :: front,back,rfl,hfront.trans (List.suffix_cons _ _),hback,?_⟩
      rintro ⟨⟨a,scheme,w,ha,hscheme,hw⟩,port,hport,y,z,rfl,hy⟩
      cases a with
      | nil =>
        -- a match would begin here
        have hne : w ++ y ≠ [] := by
          intro hnil
          rw [(List.append_eq_nil_iff.mp hnil).2] at hback
          obtain ⟨q,hq⟩ := hback
          have hd' : d ∈ port := by
            have := congrArg List.head? hq
            rw [List.head?_append,hhead] at this
            cases port with
            | nil => exact absurd (length_of_mem_ports [] hport) (by decide)
            | cons e port =>
              rw [Option.some.inj this]
              exact List.mem_cons_self
          exact hports port hport hd'
        rw [portUrl_eq_none_iff] at hm
        refine hm ⟨scheme,w ++ y ++ port,z,?_,hscheme,⟨w ++ y,hne,port,hport,rfl⟩,?_⟩
        · rw [← List.cons_append,ha]
          simp
        · exact List.not_mem_append (List.not_mem_append hw hy) (slash_not_mem_ports port hport)
      | cons c' a =>
        obtain ⟨-,rfl⟩ := List.cons.inj ha
        exact hnot ⟨⟨a,scheme,w,rfl,hscheme,hw⟩,port,hport,y,z,rfl,hy⟩
  | step s r hm ih =>
    rw [portsTo_match apiHost hm,← List.append_assoc,← apiOrigin_eq,landmark_behind_origin hmark] at h
    obtain ⟨scheme,w,rfl,hscheme,hw,hslash,hno⟩ := (portUrl_iff s r).mp hm
    obtain ⟨front,back,rfl,hfront,hback,hnot⟩ := ih h
    refine ⟨scheme ++ (w ++ front),back,by simp,?_,hback,?_⟩
    · exact (hfront.trans (List.suffix_append w front)).trans (List.suffix_append _ _)
    · rintro ⟨hin,hport⟩
      by_cases hmem : 47 ∈ front
      · obtain ⟨v,e,rfl,he⟩ := digit_of_ported hw
        have hform : scheme ++ (v ++ [e] ++ front) = (scheme ++ v) ++ e :: front := by simp
        rw [hform,inHost_behind_iff he hmem] at hin
        exact hnot ⟨hin,hport⟩
      · exact hno (hport.append_left hmem)

theorem standing_iff (s : PyStr) : mark.1 ++ mark.2 <:+: portsTo apiHost s ↔ Standing mark s :=
  ⟨standing_of_occurs hmark,occurs_of_standing hmark⟩

end Standing

theorem landmark_word : ∀ word ∈ apiWords, ([47],word.tail) ∈ landmarks ∧ [47] ++ word.tail = word := by decide

theorem dataHost_portsTo_iff (s : PyStr) : dataHost <:+: portsTo apiHost s ↔ Standing ([],dataHost) s := by
  have hmark : ([],dataHost) ∈ landmarks := List.mem_cons_self
  exact standing_iff hmark s

theorem mentionsApi_portsTo_iff (s : PyStr) :
    mentionsApi (portsTo apiHost s) = true ↔ ∃ word ∈ apiWords, Standing ([47],word.tail) s := by
  rw [mentionsApi_iff]
  refine exists_congr (fun word => and_congr_right (fun hword => ?_))
  obtain ⟨hmark,hslash⟩ := landmark_word word hword
  have h := standing_iff hmark s
  rwa [hslash] at h

theorem Standing.occurs {mark : PyStr × PyStr} {s : PyStr} (h : Standing mark s) : mark.1 ++ mark.2 <:+: s := by
  obtain ⟨_,_,rfl,⟨x,rfl⟩,⟨q,rfl⟩,-⟩ := h
  exact ⟨x,q,by simp⟩

theorem mentionsApi_of_portsTo {s : PyStr} (h : mentionsApi (portsTo apiHost s) = true) : mentionsApi s = true := by
  obtain ⟨word,hword,hstands⟩ := (mentionsApi_portsTo_iff s).mp h
  exact (mentionsApi_iff s).mpr ⟨word,hword,(landmark_word word hword).2 ▸ hstands.occurs⟩

/-- The second pass changes something just if it finds another data host to redirect. -/
theorem fetchUrl_twice_iff (url : PyStr) :
    fetchUrl (fetchUrl url) = fetchUrl url ↔ ¬ (dataHost <:+: fetchUrl url ∧ mentionsApi (fetchUrl url) = true) := by
  have hsecure : secureUrl (fetchUrl url) = fetchUrl url := if_neg (not_http_fetchUrl url)
  rw [fetchUrl_eq (fetchUrl url),hsecure]
  rcases redirectData_cases (fetchUrl url) with ⟨hno,heq⟩ | ⟨hm,a,b,hab,heq,-⟩
  · refine iff_of_true ?_ hno
    have hadd : addOrigin (fetchUrl url) = fetchUrl url := by
      refine if_neg (fun h => ?_)
      rw [fetchUrl_eq] at h
      have hstart := (prefix_portsTo_iff apiHost (by decide : ¬ py "htt" <:+: py "/") _).mp h.1
      have hword := mentionsApi_of_portsTo h.2
      unfold addOrigin at hstart hword
      split at hstart
      · rw [apiOrigin_eq,List.append_assoc] at hstart
        exact not_slash_https _ hstart
      · rename_i hnot
        rw [if_neg hnot] at hword
        exact hnot ⟨hstart,hword⟩
    rw [heq,hadd,fetchUrl_eq,portsTo_twice]
  · -- one letter a is gone for good
    refine iff_of_false (fun hsame => ?_) (fun h => h ⟨hab ▸ ⟨a,b,rfl⟩,hm⟩)
    have hlt := count_redirected_lt a b
    rw [← heq,← hab] at hlt
    have hadd : (addOrigin (redirectData (fetchUrl url))).count 97 = (redirectData (fetchUrl url)).count 97 := by
      have horigin : apiOrigin.count 97 = 0 := by decide
      unfold addOrigin
      split
      · rw [List.count_append,horigin,Nat.zero_add]
      · rfl
    have hle : (portsTo apiHost (addOrigin (redirectData (fetchUrl url)))).count 97 ≤
        (addOrigin (redirectData (fetchUrl url))).count 97 := count_replaceAll_le portUrl_proper (by decide) _
    rw [hsame] at hle
    omega

/-! What the first pass leaves, in terms of the URL it was given. -/

/-- This place belongs to a host that the wrapper replaces: a port comes before the next slash, or
the first data host of the URL does, which is given one. -/
def Rewritten (front back : PyStr) : Prop :=
  InHost front ∧ (PortAhead back ∨ ¬ dataHost <:+: front ∧ Ahead dataHost back)

/-- The data host occurs again, outside the hosts that are replaced. -/
def DataStands (url : PyStr) : Prop :=
  ∃ front back, url = front ++ (dataHost ++ back) ∧ dataHost <:+: front ∧ ¬ Rewritten front (dataHost ++ back)

/-- A word of the API occurs outside the hosts that are replaced. -/
def WordStands (url : PyStr) : Prop :=
  ∃ word ∈ apiWords, ∃ front back, url = front ++ (word ++ back) ∧ ¬ Rewritten (front ++ [47]) (word.tail ++ back)

section Redirected
variable {a b : PyStr}

theorem inHost_redirected (v : PyStr) : InHost (a ++ (dataHost ++ v)) ↔ InHost (a ++ (apiHost ++ v)) := by
  by_cases hv : 47 ∈ v
  · have hdata : dataHost = py "data.thintuit.co" ++ [109] := by decide
    have hform : ∀ (x : PyStr) (d : CodePoint), a ++ (x ++ [d] ++ v) = (a ++ x) ++ d :: v := fun x d => by simp
    rw [hdata,apiHost_last,hform,hform,inHost_behind_iff (by decide) hv,inHost_behind_iff (by decide) hv]
  · rw [inHost_append_iff (List.not_mem_append (by decide) hv),inHost_append_iff (List.not_mem_append (by decide) hv)]

/-- Behind the first data host, only a port tells whether a place is rewritten. -/
private theorem rewritten_behind (v back : PyStr) :
    Rewritten (a ++ (dataHost ++ v)) back ↔ InHost (a ++ (apiHost ++ v)) ∧ PortAhead back := by
  have hin : dataHost <:+: a ++ (dataHost ++ v) := ⟨a,v,by simp⟩
  rw [Rewritten,inHost_redirected]
  exact and_congr_right (fun _ => or_iff_left (fun h => h.1 hin))

variable (hfirst : ¬ dataHost <:+: (a ++ dataHost).dropLast)
include hfirst

private theorem dataHost_not_before : ¬ dataHost <:+: a := by
  rw [List.dropLast_append_of_ne_nil dataHost_ne_nil] at hfirst
  exact fun h => hfirst (h.trans (List.prefix_append _ _).isInfix)

/-- All that is left of the data host is behind its first occurrence. -/
private theorem dataHost_behind {front back : PyStr} (h : a ++ (apiHost ++ b) = front ++ (dataHost ++ back)) :
    ∃ v, front = a ++ (apiHost ++ v) ∧ b = v ++ (dataHost ++ back) := by
  rcases List.append_eq_append_iff.mp h with ⟨u,rfl,hu⟩ | ⟨u,rfl,hu⟩
  · have hapart : ∀ t ∈ apiHost.tails, t ≠ [] → ¬ dataHost <+: t ∧ ¬ t <+: dataHost := by decide
    obtain ⟨v,rfl,hb⟩ := occurrence_behind (fun t ht => hapart t ((List.mem_tails t apiHost).mpr ht)) hu
    exact ⟨v,rfl,hb⟩
  · cases u with
    | nil =>
      have hapart : ¬ (dataHost <+: apiHost ∨ apiHost <+: dataHost) := by decide
      rw [List.nil_append] at hu
      exact absurd (List.prefix_or_prefix_of_prefix (hu ▸ List.prefix_append dataHost back) (List.prefix_append _ b)) hapart
    | cons c u =>
      rw [dataHost_append,apiHost_append,List.cons_append] at hu
      obtain ⟨rfl,htail⟩ := List.cons.inj hu
      obtain ⟨u',rfl,-⟩ := append_of_not_mem (by decide : 100 ∉ dataHost.tail) htail.symm
      exact absurd ⟨front,u',by rw [List.append_assoc,dataHost_append]⟩ (dataHost_not_before hfirst)

theorem dataStands_redirected : Standing ([],dataHost) (a ++ (apiHost ++ b)) ↔ DataStands (a ++ (dataHost ++ b)) := by
  constructor
  · rintro ⟨front,_,h,-,⟨back,rfl⟩,hnot⟩
    obtain ⟨v,rfl,rfl⟩ := dataHost_behind hfirst h
    refine ⟨a ++ (dataHost ++ v),back,by simp,⟨a,v,by simp⟩,?_⟩
    rw [rewritten_behind]
    exact hnot
  · rintro ⟨front,back,h,hin,hnot⟩
    obtain ⟨v,rfl⟩ : a ++ dataHost <+: front := by
      refine List.prefix_of_prefix_length_le ⟨b,by rw [List.append_assoc]; exact h⟩ (List.prefix_append _ _)
        (Nat.le_of_not_lt (fun hlt => hfirst ?_))
      refine hin.trans (List.IsPrefix.isInfix ?_)
      refine List.prefix_of_prefix_length_le (List.prefix_append front _)
        ((List.dropLast_prefix _).trans ⟨b,by rw [List.append_assoc]; exact h⟩) ?_
      rw [List.length_dropLast]
      omega
    rw [List.append_assoc,List.append_assoc] at h
    have hb := List.append_cancel_left (List.append_cancel_left h)
    rw [List.append_assoc,rewritten_behind] at hnot
    exact ⟨a ++ (apiHost ++ v),dataHost ++ back,by rw [hb]; simp,List.nil_suffix,List.prefix_append _ _,hnot⟩

/-- Before the first data host, a place is rewritten if the API's host comes before the next slash. -/
private theorem rewritten_before {front v : PyStr} (ha : a = front ++ v) :
    Rewritten front (v ++ (dataHost ++ b)) ↔ InHost front ∧ PortAhead (v ++ (apiHost ++ b)) := by
  have hnone := dataHost_not_before hfirst
  refine and_congr_right (fun _ => ?_)
  by_cases hv : 47 ∈ v
  · obtain ⟨v,x,rfl,hslash⟩ := List.eq_append_cons_of_mem hv
    rw [List.append_assoc,List.append_assoc,List.cons_append,List.cons_append,portAhead_slash_iff hslash,
      portAhead_slash_iff hslash,ahead_slash_iff (by decide) hslash]
    refine or_iff_left (fun h => hnone ?_)
    rw [ha]
    exact h.2.trans ⟨front,47 :: x,by simp⟩
  · have hfront : ¬ dataHost <:+: front := by
      rw [ha] at hnone
      exact fun h => hnone (h.trans (List.prefix_append _ _).isInfix)
    have hahead : Ahead (py ":41285") (apiHost ++ b) := by
      rw [apiHost_eq,List.append_assoc]
      exact ⟨devHost,b,rfl,by decide⟩
    exact iff_of_true (.inr ⟨hfront,v,b,rfl,hv⟩) (PortAhead.append_left ⟨_,by decide,hahead⟩ hv)

omit hfirst in
/-- The two hosts continue a word of the API alike. -/
private theorem word_redirected {word : PyStr} (hword : word ∈ apiWords) (v : PyStr) :
    word.tail <+: v ++ (apiHost ++ b) ↔ word.tail <+: v ++ (dataHost ++ b) := by
  have hoverlap : ∀ word ∈ apiWords, ∀ t ∈ word.tail.tails, t.length ≤ dataHost.length ∧ t.length ≤ apiHost.length ∧
      (t <+: apiHost ↔ t <+: dataHost) := by decide
  have hshort : ∀ {t host : PyStr}, t.length ≤ host.length → (t <+: host ++ b ↔ t <+: host) := by
    intro t host hlen
    exact ⟨fun h => List.prefix_of_prefix_length_le h (List.prefix_append _ _) hlen,fun h => h.trans (List.prefix_append _ _)⟩
  by_cases hlen : word.tail.length ≤ v.length
  · have hform : ∀ s : PyStr, word.tail <+: v ++ s ↔ word.tail <+: v := fun s =>
      ⟨fun h => List.prefix_of_prefix_length_le h (List.prefix_append _ _) hlen,fun h => h.trans (List.prefix_append _ _)⟩
    rw [hform,hform]
  · have hform : ∀ s : PyStr, word.tail <+: v ++ s ↔ ∃ t, word.tail = v ++ t ∧ t <+: s := by
      intro s
      constructor
      · intro h
        obtain ⟨t,ht⟩ := List.prefix_of_prefix_length_le (List.prefix_append v s) h (by omega)
        rw [← ht,List.prefix_append_right_inj] at h
        exact ⟨t,ht.symm,h⟩
      · rintro ⟨t,ht,hts⟩
        rw [ht,List.prefix_append_right_inj]
        exact hts
    rw [hform,hform]
    refine exists_congr (fun t => and_congr_right (fun ht => ?_))
    have hmem : t ∈ word.tail.tails := (List.mem_tails t _).mpr ⟨v,ht.symm⟩
    obtain ⟨hdata,hapi,hsame⟩ := hoverlap word hword t hmem
    rw [hshort hapi,hshort hdata,hsame]

theorem wordStands_redirected :
    (∃ word ∈ apiWords, Standing ([47],word.tail) (a ++ (apiHost ++ b))) ↔ WordStands (a ++ (dataHost ++ b)) := by
  refine exists_congr (fun word => and_congr_right (fun hword => ?_))
  constructor
  · rintro ⟨_,back,h,⟨front,rfl⟩,hback,hnot⟩
    rw [List.append_assoc,List.singleton_append] at h
    rcases separator_place (by decide : 47 ∉ apiHost) h.symm with ⟨v,ha,rfl⟩ | ⟨v,rfl,rfl⟩
    · obtain ⟨q,hq⟩ := (word_redirected hword v).mp hback
      refine ⟨front,q,?_,?_⟩
      · rw [apiWord_eq word hword,List.cons_append,hq,ha]
        simp
      · rw [hq,rewritten_before hfirst (by rw [ha]; simp)]
        exact hnot
    · obtain ⟨q,rfl⟩ := hback
      refine ⟨a ++ (dataHost ++ v),q,?_,?_⟩
      · conv_rhs => rw [apiWord_eq word hword]
        simp
      · have hform : ∀ h : PyStr, a ++ (h ++ v) ++ [47] = a ++ (h ++ (v ++ [47])) := fun h => by simp
        rw [hform,rewritten_behind,← hform]
        exact hnot
  · rintro ⟨front,q,h,hnot⟩
    rw [apiWord_eq word hword,List.cons_append] at h
    rcases separator_place (by decide : 47 ∉ dataHost) h.symm with ⟨v,ha,hq⟩ | ⟨v,rfl,rfl⟩
    · refine ⟨front ++ [47],v ++ (apiHost ++ b),by rw [ha]; simp,List.suffix_append _ _,?_,?_⟩
      · rw [word_redirected hword v,← hq]
        exact List.prefix_append _ _
      · rw [hq,rewritten_before hfirst (by rw [ha]; simp)] at hnot
        exact hnot
    · have hform : ∀ h : PyStr, a ++ (h ++ v) ++ [47] = a ++ (h ++ (v ++ [47])) := fun h => by simp
      rw [hform,rewritten_behind,← hform] at hnot
      exact ⟨a ++ (apiHost ++ v) ++ [47],word.tail ++ q,by simp,List.suffix_append _ _,List.prefix_append _ _,hnot⟩

end Redirected

section Secured
variable {name : PyStr} (hname : name ∈ schemeNames) (t : PyStr)
include hname

private theorem rewritten_schemeName (f back : PyStr) :
    Rewritten (name ++ f) back ↔ ((∃ w, f = py "//" ++ w ∧ 47 ∉ w) ∨ InHost f) ∧
      (PortAhead back ∨ ¬ dataHost <:+: f ∧ Ahead dataHost back) := by
  rw [Rewritten,inHost_schemeName_iff hname,dataHost_schemeName_iff hname]

private theorem dataStands_schemeName :
    DataStands (name ++ t) ↔ ∃ f back, t = f ++ (dataHost ++ back) ∧ dataHost <:+: f ∧ ¬ Rewritten (name ++ f) (dataHost ++ back) := by
  have hletter : ∀ name ∈ schemeNames, 100 ∉ name := by decide
  constructor
  · rintro ⟨front,back,h,hin,hnot⟩
    rw [dataHost_append] at h
    obtain ⟨f,rfl,ht⟩ := append_of_not_mem (hletter name hname) h.symm
    exact ⟨f,back,by rw [ht,dataHost_append],(dataHost_schemeName_iff hname f).mp hin,hnot⟩
  · rintro ⟨f,back,rfl,hin,hnot⟩
    exact ⟨name ++ f,back,by simp,(dataHost_schemeName_iff hname f).mpr hin,hnot⟩

private theorem wordStands_schemeName :
    WordStands (name ++ t) ↔ ∃ word ∈ apiWords, ∃ f back, t = f ++ (word ++ back) ∧
      ¬ Rewritten (name ++ (f ++ [47])) (word.tail ++ back) := by
  refine exists_congr (fun word => and_congr_right (fun hword => ?_))
  constructor
  · rintro ⟨front,back,h,hnot⟩
    rw [apiWord_eq word hword,List.cons_append] at h
    obtain ⟨f,rfl,ht⟩ := append_of_not_mem (slash_not_mem_schemeName name hname) h.symm
    refine ⟨f,back,?_,by rw [← List.append_assoc]; exact hnot⟩
    rw [ht,apiWord_eq word hword]
    rfl
  · rintro ⟨f,back,rfl,hnot⟩
    exact ⟨name ++ f,back,by simp,by rw [List.append_assoc]; exact hnot⟩

end Secured

/-- The upgrade to `https` does not matter. -/
private theorem stands_secureUrl (url : PyStr) :
    (DataStands (secureUrl url) ↔ DataStands url) ∧ (WordStands (secureUrl url) ↔ WordStands url) := by
  by_cases h : py "http:" <+: url
  · obtain ⟨t,rfl⟩ := h
    have hhttp : py "http:" ∈ schemeNames := by decide
    have hhttps : py "https:" ∈ schemeNames := by decide
    rw [secureUrl_http]
    constructor
    · rw [dataStands_schemeName hhttp,dataStands_schemeName hhttps]
      simp only [rewritten_schemeName hhttp,rewritten_schemeName hhttps]
    · rw [wordStands_schemeName hhttp,wordStands_schemeName hhttps]
      simp only [rewritten_schemeName hhttp,rewritten_schemeName hhttps]
  · rw [secureUrl,if_neg h]
    exact ⟨Iff.rfl,Iff.rfl⟩

/-- The origin in front has none of the words. -/
private theorem infix_addOrigin {mark : PyStr × PyStr} (hmark : mark ∈ landmarks) (s : PyStr) :
    mark.1 ++ mark.2 <:+: portsTo apiHost (addOrigin s) ↔ mark.1 ++ mark.2 <:+: portsTo apiHost s := by
  unfold addOrigin
  split
  · rename_i h
    obtain ⟨x,rfl⟩ := h.1
    have horigin : portsTo apiHost (apiOrigin ++ 47 :: x) = apiOrigin ++ portsTo apiHost (47 :: x) := by
      rw [← replaceAll_apiOrigin_eq,← replaceAll_apiOrigin_eq,replaceAll_apiOrigin,replaceAll_slash]
    exact (Iff.of_eq (congrArg _ horigin)).trans (landmark_behind_origin hmark _)
  · rfl

private theorem leftover_iff (url : PyStr) :
    dataHost <:+: fetchUrl url ∧ mentionsApi (fetchUrl url) = true ↔
      Standing ([],dataHost) (redirectData (secureUrl url)) ∧
        ∃ word ∈ apiWords, Standing ([47],word.tail) (redirectData (secureUrl url)) := by
  have hdata : ([],dataHost) ∈ landmarks := List.mem_cons_self
  rw [fetchUrl_eq,← dataHost_portsTo_iff,← mentionsApi_portsTo_iff,mentionsApi_iff,mentionsApi_iff]
  refine and_congr (infix_addOrigin hdata _) (exists_congr (fun word => and_congr_right (fun hword => ?_)))
  obtain ⟨hmark,hslash⟩ := landmark_word word hword
  have h := infix_addOrigin hmark (redirectData (secureUrl url))
  rwa [hslash] at h

/-- Rewriting a URL again changes nothing, unless the data host occurs in it a second time and a
word of the API occurs too, both outside the hosts that the wrapper replaces. -/
theorem fetchUrl_idempotent_iff (url : PyStr) :
    fetchUrl (fetchUrl url) = fetchUrl url ↔ ¬ (DataStands url ∧ WordStands url) := by
  rw [fetchUrl_twice_iff,leftover_iff,← (stands_secureUrl url).1,← (stands_secureUrl url).2]
  refine not_congr ?_
  rcases redirectData_cases (secureUrl url) with ⟨hno,heq⟩ | ⟨-,a,b,hab,heq,hfirst⟩
  · rw [heq]
    refine iff_of_false ?_ ?_
    · rintro ⟨hdata,word,hword,hstands⟩
      exact hno ⟨hdata.occurs,(mentionsApi_iff _).mpr ⟨word,hword,(landmark_word word hword).2 ▸ hstands.occurs⟩⟩
    · rintro ⟨⟨front,back,hurl,-,-⟩,word,hword,front',back',hurl',-⟩
      refine hno ⟨⟨front,back,by rw [hurl]; simp⟩,(mentionsApi_iff _).mpr ⟨word,hword,front',back',?_⟩⟩
      rw [hurl']
      simp
  · rw [heq,hab,List.append_assoc,List.append_assoc,dataStands_redirected hfirst,wordStands_redirected hfirst]

/-- The second pass redirects the host that is named in the query. -/
theorem second_pass_redirects :
    fetchUrl (py "https://data.thintuit.com/login?next=data.thintuit.com") =
      py "https://dev.thintuit.com:41285/login?next=data.thintuit.com" ∧
    fetchUrl (fetchUrl (py "https://data.thintuit.com/login?next=data.thintuit.com")) =
      py "https://dev.thintuit.com:41285/login?next=dev.thintuit.com:41285" := by decide +kernel

end Thintuit.Client
