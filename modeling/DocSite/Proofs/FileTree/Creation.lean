import DocSite.Proofs.FileTree.Growth
import DocSite.Proofs.FileTree.Removal

namespace DocSite

/-- A path that neither starts at the root nor goes up. -/
def Path.GoesDown (p : Path) : Prop := p.isAbsolute = false ∧ ".." ∉ p.segments

instance (p : Path) : Decidable p.GoesDown := inferInstanceAs (Decidable (_ ∧ _))

namespace FileTree

variable {t t' : FileTree} {loc l top : Location} {e : Entry} {p q : Path}

/-- The path, or a first part of it, leads to a location. -/
def Passes (t : FileTree) (p : Path) (loc : Location) : Prop :=
  ∃ segs, segs ≠ [] ∧ segs <+: p.segments ∧
    Leads t true linkLimit (if p.isAbsolute then [] else t.current) segs loc

theorem Passes.within (h : t.Passes p loc) (hw : Within t t') (he : t.entryAt loc = some e) :
    t'.Passes p loc := by
  obtain ⟨segs, hne, hprefix, hleads⟩ := h
  refine ⟨segs, hne, hprefix, ?_⟩
  rw [hw.current]
  exact hleads.within hw fun _ _ => by simp [he]

theorem Passes.of_parent (h : t.Passes q loc) (hp : p.parent = some q) (hq : q.text ≠ "")
    (hroot : q.text ≠ "/") : t.Passes p loc := by
  obtain ⟨segs, hne, hprefix, hleads⟩ := h
  rcases Path.parent_cases hp with h | h | ⟨⟨more, hmore, -⟩, habs⟩
  · exact absurd h hq
  · exact absurd h hroot
  · exact ⟨segs, hne, hprefix.trans (hmore ▸ List.prefix_append _ _), habs ▸ hleads⟩

theorem createDirs_of_parent_eq_none (h : p.parent = none) (n : Nat) :
    t.createDirs p n = (t, none) := by
  cases n with
  | zero => rfl
  | succ n => rw [createDirs, h]

/-- A directory is created where its path leads without the separators at its end. -/
theorem createDir_eq_ok (hs : t.Sorted) (h : t.createDir p = .ok t') :
    ∃ loc, t.follow false (withoutSeparators p) = .ok loc ∧ t.entryAt loc = none ∧
      t' = t.put loc .dir ∧ t'.follow false (withoutSeparators p) = .ok loc := by
  have hgrows : Grows t (fun _ => False) t' := createDir_grows hs h
  unfold createDir at h
  obtain ⟨loc, hloc, h⟩ := bind_eq_ok.1 h
  split at h
  · simp at h
  rename_i hnone
  obtain rfl := Except.ok.inj h
  refine ⟨loc, hloc, hnone, rfl, follow_within hgrows.within hloc fun target htarget => ?_⟩
  have hne : loc ≠ [] := by
    rintro rfl
    simp at hnone
  simp [entryAt_put hne] at htarget

theorem passes_of_createDir {n : Nat} (hn : p.text.toList =
      (withoutSeparators p).text.toList ++ List.replicate n '/')
    (h : t.follow false (withoutSeparators p) = .ok loc) (hdir : t.entryAt loc = some .dir) :
    t.Passes p loc := by
  have hlast := follow_true_of_false h fun target => by simp [hdir]
  obtain ⟨htext, hleads⟩ := follow_eq_ok_iff.1 hlast
  -- the separators that were cut off are not those of the root
  have habs : (withoutSeparators p).isAbsolute = p.isAbsolute := by
    obtain ⟨c, cs, hcs⟩ := List.exists_cons_of_ne_nil
      (by simpa using htext : (withoutSeparators p).text.toList ≠ [])
    simp [Path.isAbsolute, hn, hcs]
  refine ⟨(withoutSeparators p).segments, Path.segments_ne_nil _, ?_, habs ▸ hleads⟩
  refine ⟨List.replicate n "", ?_⟩
  simp [Path.segments, hn, Text.splitAll_append_replicate]

/-- What a location held before and after directories were created for a path. -/
structure Created (t : FileTree) (p : Path) (t' : FileTree) (loc : Location) : Prop where
  missing : t.entryAt loc = none
  isDir : t'.entryAt loc = some .dir
  passes : t'.Passes p loc

theorem createDir_created (hs : t.Sorted) (h : t.createDir p = .ok t') (l : Location) :
    t'.entryAt l = t.entryAt l ∨ Created t p t' l := by
  obtain ⟨loc, -, hnone, rfl, hloc⟩ := createDir_eq_ok hs h
  have hne : loc ≠ [] := by
    rintro rfl
    simp at hnone
  by_cases hl : l = loc
  · subst hl
    obtain ⟨n, hn⟩ := exists_toList_eq p
    have hdir : (t.put l .dir).entryAt l = some .dir := by rw [entryAt_put hne, if_pos rfl]
    exact .inr ⟨hnone, hdir, passes_of_createDir hn hloc hdir⟩
  · exact .inl (by rw [entryAt_put hne, if_neg hl])

/-- Creating the missing directories of a path changes nothing but what the path passes. -/
theorem createDirs_created (hs : t.Sorted) (n : Nat) (l : Location) :
    (t.createDirs p n).1.entryAt l = t.entryAt l ∨ Created t p (t.createDirs p n).1 l := by
  induction n generalizing t p with
  | zero => exact .inl rfl
  | succ n ih =>
    unfold createDirs
    split
    · exact .inl rfl
    rename_i q hq
    split
    · rename_i t' hcreate
      exact createDir_created hs hcreate l
    · -- the parents come first, and what they pass the path passes
      have habove : (t.createDirs q n).1.entryAt l = t.entryAt l ∨
          Created t p (t.createDirs q n).1 l := by
        by_cases htrivial : q.text = "" ∨ q.text = "/"
        · rw [createDirs_of_parent_eq_none (Path.parent_eq_none htrivial)]
          exact .inl rfl
        · rw [not_or] at htrivial
          refine (ih hs).imp_right fun h => ⟨h.missing, h.isDir, ?_⟩
          exact h.passes.of_parent hq htrivial.1 htrivial.2
      have hgrows : Grows t (fun _ => False) (t.createDirs q n).1 := createDirs_grows hs n
      split
      · rename_i t' cause heq
        rwa [heq] at habove
      · rename_i t' heq
        rw [heq] at habove hgrows
        split
        · rename_i t'' hcreate
          have hlast : Grows t' (fun _ => False) t'' := createDir_grows hgrows.sorted hcreate
          rcases createDir_created hgrows.sorted hcreate l with hkept | hnew
          · rcases habove with habove | habove
            · exact .inl (hkept.trans habove)
            · exact .inr ⟨habove.missing, hkept.trans habove.isDir,
                habove.passes.within hlast.within habove.isDir⟩
          · rcases habove with habove | habove
            · exact .inr ⟨habove ▸ hnew.missing, hnew.isDir, hnew.passes⟩
            · exact absurd habove.isDir (by simp [hnew.missing])
        · exact habove
    · exact .inl rfl

/-- What a path leads to through its last link is there without following that link. -/
theorem Leads.exists_false {links : Nat} {segs : List String}
    (h : Leads t true links loc segs l) (he : t.entryAt l = some e) :
    ∃ l' e', Leads t false links loc segs l' ∧ t.entryAt l' = some e' := by
  induction h with
  | arrived => exact ⟨_, e, .arrived, he⟩
  | here hdir hseg _ ih =>
    obtain ⟨l', e', hl', he'⟩ := ih he
    exact ⟨l', e', .here hdir hseg hl', he'⟩
  | up hdir _ ih =>
    obtain ⟨l', e', hl', he'⟩ := ih he
    exact ⟨l', e', .up hdir hl', he'⟩
  | missing _ _ hentry => simp [hentry] at he
  | atLink _ _ _ hlast => simp at hlast
  | @through _ loc seg rest _ target hdir hseg hentry _ htarget _ ih =>
    by_cases hrest : rest = []
    · subst hrest
      exact ⟨_, .link target, .atLink hdir hseg hentry rfl, hentry⟩
    · obtain ⟨l', e', hl', he'⟩ := ih he
      exact ⟨l', e', .through hdir hseg hentry (fun h => absurd h hrest) htarget hl', he'⟩
  | child hdir hseg hentry hlink _ ih =>
    obtain ⟨l', e', hl', he'⟩ := ih he
    exact ⟨l', e', .child hdir hseg hentry hlink hl', he'⟩

theorem exists_follow_false (h : t.follow true p = .ok l) (he : t.entryAt l = some e) :
    ∃ l' e', t.follow false p = .ok l' ∧ t.entryAt l' = some e' := by
  obtain ⟨htext, hleads⟩ := follow_eq_ok_iff.1 h
  obtain ⟨l', e', hl', he'⟩ := hleads.exists_false he
  exact ⟨l', e', follow_eq_ok_iff.2 ⟨htext, hl'⟩, he'⟩

theorem withoutSeparators_of_parent (h : p.parent = some q) :
    (withoutSeparators p).text ≠ "" ∧ (withoutSeparators p).isAbsolute = p.isAbsolute := by
  obtain ⟨n, hn⟩ := exists_toList_eq p
  have hne : (withoutSeparators p).text.toList ≠ [] := by
    intro hnil
    obtain ⟨d, hd, hslash⟩ := Path.exists_ne_separator_of_parent h
    rw [hn, hnil, List.nil_append] at hd
    exact hslash (List.eq_of_mem_replicate hd)
  obtain ⟨c, cs, hcs⟩ := List.exists_cons_of_ne_nil hne
  exact ⟨by simpa using hne, by simp [Path.isAbsolute, hn, hcs]⟩

/-- A path that leads to a directory leads somewhere without the separators at its end and without
following its last link. -/
theorem exists_follow_withoutSeparators (hparent : p.parent = some q) (h : t.isDir p = true) :
    ∃ loc e, t.follow false (withoutSeparators p) = .ok loc ∧ t.entryAt loc = some e := by
  obtain ⟨l, hl, hdir⟩ := isDir_iff.1 h
  obtain ⟨-, hleads⟩ := follow_eq_ok_iff.1 hl
  obtain ⟨htext, habs⟩ := withoutSeparators_of_parent hparent
  obtain ⟨n, hn⟩ := exists_toList_eq p
  have hsegs : p.segments = (withoutSeparators p).segments ++ List.replicate n "" := by
    simp [Path.segments, hn, Text.splitAll_append_replicate]
  rw [hsegs] at hleads
  obtain ⟨m, hm, hmdir⟩ : ∃ m, Leads t true linkLimit (if p.isAbsolute then [] else t.current)
      (withoutSeparators p).segments m ∧ t.isDirAt m = true := by
    cases n with
    | zero => exact ⟨l, by simpa using hleads, hdir⟩
    | succ n => exact hleads.exists_prefix (by simp)
  obtain ⟨loc, e, hloc, he⟩ := hm.exists_false (isDirAt_iff.1 hmdir)
  exact ⟨loc, e, follow_eq_ok_iff.2 ⟨htext, by rwa [habs]⟩, he⟩

theorem createDir_of_isDir (hparent : p.parent = some q) (h : t.isDir p = true) :
    t.createDir p = .error .alreadyExists := by
  obtain ⟨loc, e, hloc, he⟩ := exists_follow_withoutSeparators hparent h
  simp [createDir, hloc, he, bind, Except.bind]

theorem createDirs_of_isDir (h : t.isDir p = true) (n : Nat) : t.createDirs p n = (t, none) := by
  cases n with
  | zero => rfl
  | succ n =>
    cases hq : p.parent with
    | none => exact createDirs_of_parent_eq_none hq _
    | some q => simp [createDirs, hq, createDir_of_isDir hq h, h]

/-- Without the separators at its end, a path has the segments of its parent and more. -/
theorem exists_segments_of_parent (h : p.parent = some q) (hq : q.text ≠ "")
    (hroot : q.text ≠ "/") :
    ∃ more, more ≠ [] ∧ (withoutSeparators p).segments = q.segments ++ more := by
  rcases Path.parent_cases h with h | h | ⟨⟨more, hmore, seg, hseg, hne⟩, -⟩
  · exact absurd h hq
  · exact absurd h hroot
  obtain ⟨n, hn⟩ := exists_toList_eq p
  have hsegs : p.segments = (withoutSeparators p).segments ++ List.replicate n "" := by
    simp [Path.segments, hn, Text.splitAll_append_replicate]
  rw [hsegs] at hmore
  rcases List.append_eq_append_iff.1 hmore with ⟨rest, -, hrest⟩ | ⟨rest, hrest, htail⟩
  · -- the segments after those of the parent are not all empty
    have hempty : seg ∈ List.replicate n "" := hrest ▸ List.mem_append_right _ hseg
    exact absurd (List.eq_of_mem_replicate hempty) hne
  · refine ⟨rest, ?_, hrest⟩
    rintro rfl
    rw [List.nil_append] at htail
    exact hne (List.eq_of_mem_replicate (htail ▸ hseg))

/-- Of what a path below a directory passes, whatever was not there already is led to from the
directory without going up. -/
theorem Passes.exists_leads_of_join (h : t'.Passes (p.join q) loc) (hw : Within t t')
    (htop : t.follow true p = .ok top) (hdir : t.isDirAt top = true) (hq : q.GoesDown) :
    (∃ e, t.entryAt loc = some e) ∨
      ∃ links segs, ".." ∉ segs ∧ Leads t' true links top segs loc := by
  obtain ⟨segs, hne, hprefix, hleads⟩ := h
  obtain ⟨hp, hpleads⟩ := follow_eq_ok_iff.1 htop
  rw [Path.isAbsolute_join hp hq.1, hw.current] at hleads
  -- up to an empty segment, the segments of `p` come first and lead to `top`
  obtain ⟨base, hbase, hjoin⟩ : ∃ base, Leads t true linkLimit
      (if p.isAbsolute then [] else t.current) base top ∧
        (p.join q).segments = base ++ q.segments := by
    rcases Path.segments_join hp hq.1 with hsegs | ⟨base, hpsegs, hsegs⟩
    · exact ⟨p.segments, hpleads, hsegs⟩
    · rw [hpsegs] at hpleads
      exact ⟨base, hpleads.of_append_empty.1, hsegs⟩
  have hbase' := hbase.within hw fun _ _ => by simp [isDirAt_iff.1 hdir]
  rw [hjoin] at hprefix
  rcases List.prefix_or_prefix_of_prefix hprefix (List.prefix_append base _) with
    ⟨rest, rfl⟩ | ⟨rest, rfl⟩
  · -- still on the way to `top`, where directories stand
    left
    by_cases hrest : rest = []
    · rw [hrest, List.append_nil] at hbase'
      obtain rfl := hbase'.unique hleads
      exact ⟨_, isDirAt_iff.1 hdir⟩
    · obtain ⟨m, hm, hmdir⟩ := hbase.exists_prefix hrest
      obtain rfl := (hm.within hw fun _ _ => by simp [isDirAt_iff.1 hmdir]).unique hleads
      exact ⟨_, isDirAt_iff.1 hmdir⟩
  · right
    by_cases hrest : rest = []
    · rw [hrest, List.append_nil] at hleads
      obtain rfl := hbase'.unique hleads
      exact ⟨0, [], List.not_mem_nil, .arrived⟩
    · obtain ⟨links, hdown⟩ := hbase'.drop hrest hleads
      have hup : ".." ∉ rest := fun h =>
        hq.2 ((List.prefix_append_right_inj base).1 hprefix |>.subset h)
      exact ⟨links, rest, hup, hdown⟩

/-- Of what a path below a directory passes, whatever is not below the directory was there
already. -/
theorem Passes.of_join (h : t'.Passes (p.join q) loc) (hw : Within t t')
    (htop : t.follow true p = .ok top) (hdir : t.isDirAt top = true) (hq : q.GoesDown)
    (hlinks : ¬t'.LinkBelow top) : (∃ e, t.entryAt loc = some e) ∨ top <+: loc := by
  refine (h.exists_leads_of_join hw htop hdir hq).imp_right ?_
  rintro ⟨links, segs, hup, hleads⟩
  rw [hleads.eq_append_namesOf hup (List.prefix_refl _) hlinks]
  exact List.prefix_append _ _

end FileTree
end DocSite
