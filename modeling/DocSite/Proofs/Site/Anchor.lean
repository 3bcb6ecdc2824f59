import DocSite.Proofs.Site.Fault

namespace DocSite

namespace Member

variable {m other : Member}

def anchor (m : Member) : String := Links.anchorMark m.kind ++ m.name

/-- A constant that is named like the anchor of a member of another kind. -/
def Mimics (m other : Member) : Prop :=
  m.kind = .constant ∧ other.kind ≠ .constant ∧ m.name = other.anchor

theorem anchor_eq_iff : m.anchor = other.anchor ↔
    (m.kind = other.kind ∧ m.name = other.name) ∨ m.Mimics other ∨ other.Mimics m := by
  have hmark : ∀ {a b : String}, "$" ++ a ≠ "_" ++ b := by
    intro a b h
    simpa using congrArg String.toList h
  unfold Mimics anchor
  cases m.kind <;> cases other.kind <;> simp [Links.anchorMark, hmark, hmark.symm, eq_comm]

end Member

theorem anchorOf_eq {link : String} {before after : List Char}
    (hlink : link.toList = before ++ '#' :: after) (hbefore : '#' ∉ before) :
    anchorOf link = String.ofList after := by
  rw [anchorOf, Text.splitFirst_eq_some_iff.2 ⟨hlink, hbefore⟩]

/-- What a page has behind its first `#` becomes a part of all anchors on it. -/
theorem anchorOf_append (page anchor : String) : anchorOf (page ++ "#" ++ anchor) =
    if '#' ∈ page.toList then anchorOf page ++ "#" ++ anchor else anchor := by
  split
  · rename_i hpage
    obtain ⟨before, after, hcut, hbefore⟩ := List.eq_append_cons_of_mem hpage
    have hlink : (page ++ "#" ++ anchor).toList =
        before ++ '#' :: (after ++ '#' :: anchor.toList) := by
      simp [hcut]
    rw [anchorOf_eq hlink hbefore, anchorOf_eq hcut hbefore, ← String.toList_inj]
    simp
  · rename_i hpage
    have hlink : (page ++ "#" ++ anchor).toList = page.toList ++ '#' :: anchor.toList := by
      simp
    rw [anchorOf_eq hlink hpage, String.ofList_toList]

namespace Links

variable {l : Links} {d : Decl} {m : Member} {page pattern : String}

theorem memberLink_eq (hpage : l.typePage d = .ok page) :
    l.memberLink d m = .ok (page ++ "#" ++ m.anchor) := by
  rw [memberLink, hpage, Member.anchor, ← String.append_assoc]
  rfl

theorem hash_mem_typePage_iff (hpattern : l.filenames.get? .classPage = some pattern)
    (hpage : l.typePage d = .ok page) : '#' ∈ page.toList ↔ '#' ∈ pattern.toList := by
  rw [eq_of_eq_ok hpage (typePage_eq hpattern d)]
  exact Filenames.mem_fill_iff (by decide) fun h => absurd (mem_tokenOf h) (by decide)

end Links

/-- Two members of a type that differ in kind or name have different links, and different anchors
in their views, unless one of them is a constant that is named like the anchor of the other. The
link in a view is the page of the type, a `#` and the anchor, unless the pattern for file names has
a `#`. -/
theorem anchors_of_members (l : Links) (d : Decl) (pattern : String)
    (hpattern : l.filenames.get? .classPage = some pattern) :
    ∃ page, l.typePage d = .ok page ∧
      (∀ m, l.memberLink d m = .ok (page ++ "#" ++ m.anchor)) ∧
      (∀ m other, l.memberLink d m = l.memberLink d other ↔
        (m.kind = other.kind ∧ m.name = other.name) ∨ m.Mimics other ∨ other.Mimics m) ∧
      (∀ m source, l.filenames.get? .sourcePage = some source →
        ∃ v, MemberView.of l d m = .ok v) ∧
      (∀ m v, MemberView.of l d m = .ok v → v.link = page ++ "#" ++ m.anchor ∧
        (v.anchor = if '#' ∈ pattern.toList then anchorOf page ++ "#" ++ m.anchor else m.anchor) ∧
        (v.link = page ++ "#" ++ v.anchor ↔ '#' ∉ pattern.toList)) ∧
      ∀ m other v w, MemberView.of l d m = .ok v → MemberView.of l d other = .ok w →
        (v.anchor = w.anchor ↔
          (m.kind = other.kind ∧ m.name = other.name) ∨ m.Mimics other ∨ other.Mimics m) := by
  obtain ⟨page, hpage⟩ := Links.exists_page hpattern (tokenOf d.name)
  have hlink : ∀ m, l.memberLink d m = .ok (page ++ "#" ++ m.anchor) :=
    fun _ => Links.memberLink_eq hpage
  have hview : ∀ m v, MemberView.of l d m = .ok v → v.link = page ++ "#" ++ m.anchor ∧
      v.anchor = if '#' ∈ pattern.toList then anchorOf page ++ "#" ++ m.anchor else m.anchor := by
    intro m v hv
    have hv' : v.link = page ++ "#" ++ m.anchor :=
      eq_of_eq_ok (MemberView.of_eq_ok hv).1 (hlink m)
    refine ⟨hv', ?_⟩
    rw [MemberView.anchor_of_eq_ok hv, hv', anchorOf_append]
    simp only [Links.hash_mem_typePage_iff hpattern hpage]
  refine ⟨page, hpage, hlink, fun m other => ?_, fun m source hsource => ?_,
    fun m v hv => ⟨(hview m v hv).1, (hview m v hv).2, ?_⟩, fun m other v w hv hw => ?_⟩
  · rw [hlink, hlink, Except.ok.injEq, ← Member.anchor_eq_iff]
    simp
  · obtain ⟨link, hsource⟩ := Links.exists_memberSourceLink hsource d m
    rw [MemberView.of, hlink, hsource]
    exact ⟨_, rfl⟩
  · have hlonger : m.anchor ≠ anchorOf page ++ "#" ++ m.anchor := by
      intro h
      have hlength := congrArg String.length h
      simp only [String.length_append] at hlength
      have hmark : "#".length = 1 := rfl
      omega
    rw [(hview m v hv).1, (hview m v hv).2, String.append_right_inj]
    split
    · rename_i hin
      exact iff_of_false hlonger (not_not.2 hin)
    · rename_i hout
      exact iff_of_true rfl hout
  · rw [(hview m v hv).2, (hview other w hw).2, ← Member.anchor_eq_iff]
    split <;> simp

/-- A property, a method and a constant of one name have three links with the standard patterns. -/
theorem anchors_of_members_namesakes :
    let l : Links := ⟨Filenames.standard, ⟨"/p"⟩, ""⟩
    let d := Decl.builtin "A" .classType
    let member (kind : MemberKind) : Member := { name := "run", kind }
    l.memberLink d (member .property) ≠ l.memberLink d (member .method) ∧
      l.memberLink d (member .method) ≠ l.memberLink d (member .constant) ∧
      ∃ v, MemberView.of l d (member .method) = .ok v ∧ v.anchor = "_run" := by
  intro l d member
  obtain ⟨page, -, -, hlinks, hexists, hview, -⟩ :=
    anchors_of_members l d "class-%s.html" (by decide)
  obtain ⟨v, hv⟩ := hexists (member .method) "source-%s.html" (by decide)
  refine ⟨?_, ?_, v, hv, (hview _ v hv).2.1⟩
  · rw [ne_eq, hlinks]
    simp [member, Member.Mimics]
  · rw [ne_eq, hlinks]
    simp [member, Member.Mimics, Member.anchor, Links.anchorMark]

/-- A constant that is named like the anchor of a method shares its link. With a `#` in the pattern
for file names a view has more in its anchor than what stands behind the page. -/
theorem constant_shares_link_with_method :
    let run : Member := { name := "run", kind := .method }
    let mimic : Member := { name := "_run", kind := .constant }
    let d := ((Decl.builtin "A" .classType).withMember run).withMember mimic
    let l : Links := ⟨Filenames.standard, ⟨"/p"⟩, ""⟩
    let hashed : Links :=
      { l with filenames := { Filenames.standard with forClass := some "a#%s.html" } }
    (Text.countWord placeholder "class-%s.html".toList = 1 ∧
      Text.countWord placeholder "a#%s.html".toList = 1) ∧
    (run ∈ d.members ∧ mimic ∈ d.members ∧ run.kind ≠ mimic.kind ∧ run.name ≠ mimic.name) ∧
    (∀ m ∈ [run, mimic], l.memberLink d m = .ok "class-A.html#_run" ∧
      (MemberView.of l d m).map MemberView.anchor = .ok "_run") ∧
    hashed.typePage d = .ok "a#A.html" ∧
    (MemberView.of hashed d run).map (fun v => (v.link, v.anchor)) =
      .ok ("a#A.html#_run", "A.html#_run") := by
  intro run mimic d l hashed
  refine ⟨by decide, by decide, ?_, ?_, ?_⟩
  · intro m hm
    rcases List.mem_pair.1 hm with rfl | rfl
    · exact ⟨toOption_eq_some_iff.1 (by decide), toOption_eq_some_iff.1 (by decide)⟩
    · exact ⟨toOption_eq_some_iff.1 (by decide), toOption_eq_some_iff.1 (by decide)⟩
  · exact toOption_eq_some_iff.1 (by decide)
  · exact toOption_eq_some_iff.1 (by decide)

end DocSite
