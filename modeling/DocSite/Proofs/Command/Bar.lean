import DocSite.Command.Bar
import DocSite.Proofs.Site.Highlight
import DocSite.Proofs.Site.Written
import Mathlib.Data.List.Induction

namespace DocSite.Bar

variable {current later total done p m n : Nat}

theorem percent_le (current total : Nat) : percent current total ≤ 100 := by
  unfold percent
  split
  · exact Nat.le_refl 100
  · apply Nat.div_le_of_le_mul
    exact Nat.mul_le_mul_right 100 (Nat.min_le_right current total)

/-- All is done just if there is nothing to do or every unit is done. -/
theorem percent_eq_iff : percent current total = 100 ↔ total = 0 ∨ total ≤ current := by
  unfold percent
  split
  · simp_all
  · rename_i htotal
    rw [Nat.div_eq_iff (by omega)]
    omega

theorem percent_mono (h : current ≤ later) : percent current total ≤ percent later total := by
  unfold percent
  split
  · exact Nat.le_refl 100
  · apply Nat.div_le_div_right
    apply Nat.mul_le_mul_right
    omega

theorem length_body (p : Nat) : (body p).length = 40 := by
  unfold body width
  dsimp only
  split
  · rfl
  · rw [String.length_ofList, List.length_append, List.length_cons, List.length_replicate,
      List.length_replicate]
    omega

theorem mem_body {c : Char} (h : c ∈ (body p).toList) : c = '=' ∨ c = '>' ∨ c = ' ' := by
  unfold body at h
  dsimp only at h
  split at h <;> rw [String.toList_ofList] at h
  · exact .inl (List.eq_of_mem_replicate h)
  · rcases List.mem_append.1 h with h | h
    · exact .inl (List.eq_of_mem_replicate h)
    · rcases List.mem_cons.1 h with h | h
      · exact .inr (.inl h)
      · exact .inr (.inr (List.eq_of_mem_replicate h))

theorem length_alignRight (h : p ≤ 100) : (Highlight.alignRight 3 p).length = 3 := by
  have hdigits : (toString p).length ≤ (toString 100).length := Highlight.length_toString_le h
  have hthree : (toString 100).length = 3 := by decide
  rw [Highlight.alignRight, String.length_ofList, List.length_append, List.length_replicate,
    String.length_toList]
  omega

theorem length_line (h : p ≤ 100) : (line p).length = 47 := by
  have hopen : "[".length = 1 := rfl
  have hclose : "] ".length = 2 := rfl
  have hsign : "%".length = 1 := rfl
  simp only [line, String.length_append, hopen, hclose, hsign, length_body, length_alignRight h]

def times? (a b : UInt64) : Option UInt64 :=
  if a.toNat * b.toNat < UInt64.size then some (a * b) else none

def minus? (a b : UInt64) : Option UInt64 := if b ≤ a then some (a - b) else none

def over? (a b : UInt64) : Option UInt64 := if b = 0 then none else some (a / b)

def percent? (current total : UInt64) : Option UInt64 :=
  if total = 0 then some 100 else do
    let hundredfold ← times? (min current total) 100
    over? hundredfold total

def body? (percent : UInt64) : Option String := do
  let cells ← times? percent (.ofNat width)
  let filled ← over? cells 100
  if .ofNat width ≤ filled then some (String.ofList (List.replicate width '='))
  else do
    let left ← minus? (.ofNat width) filled
    let blank ← minus? left 1
    some (String.ofList
      (List.replicate filled.toNat '=' ++ '>' :: List.replicate blank.toNat ' '))

def render? (current total : UInt64) : Option (String × UInt64) := do
  let percent ← percent? current total
  let bar ← body? percent
  some ("[" ++ bar ++ "] " ++ Highlight.alignRight 3 percent.toNat ++ "%", percent)

theorem times?_eq (a b : UInt64) : times? a b =
    if a.toNat * b.toNat < UInt64.size then some (.ofNat (a.toNat * b.toNat)) else none := by
  rw [times?, UInt64.ofNat_mul, UInt64.ofNat_toNat, UInt64.ofNat_toNat]

theorem over?_eq {a b : UInt64} (h : b ≠ 0) : over? a b = some (.ofNat (a.toNat / b.toNat)) := by
  rw [over?, if_neg h, UInt64.ofNat_div a.toNat_lt_size b.toNat_lt_size, UInt64.ofNat_toNat,
    UInt64.ofNat_toNat]

theorem times?_ofNat (hm : m < UInt64.size) (hn : n < UInt64.size) (h : m * n < UInt64.size) :
    times? (.ofNat m) (.ofNat n) = some (.ofNat (m * n)) := by
  rw [times?_eq, UInt64.toNat_ofNat_of_lt' hm, UInt64.toNat_ofNat_of_lt' hn, if_pos h]

theorem minus?_ofNat (hm : m < UInt64.size) (h : n ≤ m) :
    minus? (.ofNat m) (.ofNat n) = some (.ofNat (m - n)) := by
  have hle : UInt64.ofNat n ≤ UInt64.ofNat m := by
    rw [UInt64.le_iff_toNat_le, UInt64.toNat_ofNat_of_lt' (Nat.lt_of_le_of_lt h hm),
      UInt64.toNat_ofNat_of_lt' hm]
    exact h
  rw [minus?, if_pos hle, UInt64.ofNat_sub h]

theorem ofNat_le_ofNat (hm : m < UInt64.size) (hn : n < UInt64.size) :
    UInt64.ofNat m ≤ UInt64.ofNat n ↔ m ≤ n := by
  rw [UInt64.le_iff_toNat_le, UInt64.toNat_ofNat_of_lt' hm, UInt64.toNat_ofNat_of_lt' hn]

theorem toNat_min (a b : UInt64) : (min a b).toNat = min a.toNat b.toNat := by
  have hmin : min a b = if a ≤ b then a else b := rfl
  rw [hmin]
  split
  · rename_i h
    exact (Nat.min_eq_left (UInt64.le_iff_toNat_le.1 h)).symm
  · rename_i h
    rw [UInt64.le_iff_toNat_le] at h
    omega

/-- The percentage can be calculated just if a hundredfold of what is done fits in a word. -/
theorem percent?_eq (current total : UInt64) : percent? current total =
    if min current.toNat total.toNat * 100 < UInt64.size then
      some (.ofNat (percent current.toNat total.toNat)) else none := by
  rw [percent?, percent]
  by_cases hzero : total = 0
  · have hnat : total.toNat = 0 := by rw [hzero]; rfl
    have hfits : min current.toNat total.toNat * 100 < UInt64.size := by
      rw [hnat, Nat.min_zero]
      decide
    rw [if_pos hzero, if_pos hfits, if_pos hnat]
    rfl
  · have hnat : total.toNat ≠ 0 := fun h => hzero (UInt64.toNat_inj.1 h)
    have hhundred : (100 : UInt64).toNat = 100 := rfl
    rw [if_neg hzero, if_neg hnat, times?_eq, toNat_min, hhundred]
    split
    · rename_i hfits
      rw [Option.bind_eq_bind, Option.bind_some, over?_eq hzero, UInt64.toNat_ofNat_of_lt' hfits]
    · rfl

/-- The bar of a percentage can always be calculated. -/
theorem body?_ofNat (h : p ≤ 100) : body? (.ofNat p) = some (body p) := by
  have hsize : 4000 < UInt64.size := by decide
  have hwidth : width = 40 := rfl
  have hproduct : p * width ≤ 4000 := by
    rw [hwidth]
    omega
  have hcells : times? (.ofNat p) (.ofNat width) = some (.ofNat (p * width)) :=
    times?_ofNat (by omega) (by omega) (by omega)
  have hfilled : over? (.ofNat (p * width)) 100 = some (.ofNat (p * width / 100)) := by
    rw [over?_eq (by decide), UInt64.toNat_ofNat_of_lt' (by omega)]
    rfl
  have hle := ofNat_le_ofNat (m := width) (n := p * width / 100) (by omega) (by omega)
  simp only [body?, hcells, Option.bind_eq_bind, Option.bind_some, hfilled, hle]
  unfold body
  dsimp only
  split
  · rfl
  · rename_i hroom
    have hleft : minus? (.ofNat width) (.ofNat (p * width / 100)) =
        some (.ofNat (width - p * width / 100)) := minus?_ofNat (by omega) (by omega)
    have hblank : minus? (.ofNat (width - p * width / 100)) 1 =
        some (.ofNat (width - p * width / 100 - 1)) := minus?_ofNat (n := 1) (by omega) (by omega)
    rw [hleft, Option.bind_some, hblank, Option.bind_some, UInt64.toNat_ofNat_of_lt' (by omega),
      UInt64.toNat_ofNat_of_lt' (by omega)]

/-- The bar is drawn with the percentage, wherever this can be calculated. -/
theorem render?_eq (current total : UInt64) : render? current total =
    if min current.toNat total.toNat * 100 < UInt64.size then
      some (line (percent current.toNat total.toNat), .ofNat (percent current.toNat total.toNat))
    else none := by
  have hle := percent_le current.toNat total.toNat
  have hsize : 100 < UInt64.size := by decide
  rw [render?, percent?_eq]
  split
  · rw [Option.bind_eq_bind, Option.bind_some, body?_ofNat hle, Option.bind_eq_bind,
      Option.bind_some, UInt64.toNat_ofNat_of_lt' (by omega)]
    rfl
  · rfl

def shownAfter (calls : List ProgressCall) : Option Nat :=
  (calls.filterMap fun
    | .update current total => some (percent current total)
    | .finish => none).getLast?

theorem shownAfter_concat_update (calls : List ProgressCall) (current total : Nat) :
    shownAfter (calls ++ [.update current total]) = some (percent current total) := by
  simp [shownAfter]

theorem shownAfter_concat_finish (calls : List ProgressCall) :
    shownAfter (calls ++ [.finish]) = shownAfter calls := by
  simp [shownAfter]

theorem draw_text (shown? : Option Nat) (current total : Nat) :
    (draw shown? (.update current total)).1 =
      if shown? = some (percent current total) then "" else
        clearLine ++ line (percent current total) := by
  dsimp only [draw]
  split <;> rfl

theorem draw_shown (shown? : Option Nat) (current total : Nat) :
    (draw shown? (.update current total)).2 = some (percent current total) := by
  dsimp only [draw]
  split
  · assumption
  · rfl

/-- The text that is written and the percentage that is shown after some calls. -/
theorem foldl_draw (calls : List ProgressCall) :
    calls.foldl (fun (text, shown?) call =>
      let (more, shown?) := draw shown? call
      (text ++ more, shown?)) (("" : String), (none : Option Nat)) =
    (drawAll calls, shownAfter calls) := by
  refine Prod.ext rfl ?_
  induction calls using List.reverseRecOn with
  | nil => rfl
  | append_singleton calls call ih =>
    rw [List.foldl_append, List.foldl_cons, List.foldl_nil]
    dsimp only
    rw [ih]
    cases call with
    | update current total => rw [draw_shown, shownAfter_concat_update]
    | finish => rw [shownAfter_concat_finish]; rfl

theorem drawAll_concat (calls : List ProgressCall) (call : ProgressCall) :
    drawAll (calls ++ [call]) = drawAll calls ++ (draw (shownAfter calls) call).1 := by
  rw [drawAll, List.foldl_append, foldl_draw, List.foldl_cons, List.foldl_nil]

/-- The bars of some percentages, each drawn over the one before it. -/
def drawings (percents : List Nat) : String :=
  String.join (percents.map fun p => clearLine ++ line p)

theorem drawings_concat (percents : List Nat) (p : Nat) :
    drawings (percents ++ [p]) = drawings percents ++ (clearLine ++ line p) := by
  rw [drawings, List.map_append, String.join_append, drawings, List.map_singleton,
    String.join_cons, String.join_nil, String.append_empty]

/-- The percentages that a bar draws while the first units of all are done. The one that it shows
already is not drawn first. -/
structure Drawn (shown? : Option Nat) (total done : Nat) (percents : List Nat) : Prop where
  ascending : percents.Pairwise (· < ·)
  mem_iff : ∀ p, p ∈ percents ↔
    (∃ current ≤ done, percent current total = p) ∧ ¬(shown? = some p ∧ p = percent 0 total)
  getLast? : percents.getLast? = some (percent done total) ∨
    shown? = some (percent done total) ∧ percent done total = percent 0 total

theorem exists_drawn_zero (shown? : Option Nat) (total : Nat) : ∃ percents,
    (draw shown? (.update 0 total)).1 = drawings percents ∧ Drawn shown? total 0 percents := by
  rw [draw_text]
  by_cases hshown : shown? = some (percent 0 total)
  · refine ⟨[], if_pos hshown, .nil, ?_, .inr ⟨hshown, rfl⟩⟩
    intro p
    constructor
    · exact fun hin => absurd hin List.not_mem_nil
    · rintro ⟨⟨current, hzero, rfl⟩, hnot⟩
      rw [Nat.le_zero.1 hzero] at hnot
      exact absurd ⟨hshown, rfl⟩ hnot
  · refine ⟨[percent 0 total], ?_, List.pairwise_singleton .., ?_, .inl rfl⟩
    · rw [if_neg hshown]
      simp [drawings]
    · intro p
      simp only [List.mem_singleton, Nat.le_zero_eq, exists_eq_left]
      constructor
      · rintro rfl
        exact ⟨rfl, fun h => hshown h.1⟩
      · intro h
        exact h.1.symm

variable {shown? : Option Nat} {percents : List Nat}

theorem Drawn.le (h : Drawn shown? total done percents) (hp : p ∈ percents) :
    p ≤ percent done total := by
  obtain ⟨⟨current, hcurrent, rfl⟩, -⟩ := (h.mem_iff p).1 hp
  exact percent_mono hcurrent

/-- A unit that leaves the percentage as it is draws nothing. -/
theorem Drawn.same (h : Drawn shown? total done percents)
    (hsame : percent (done + 1) total = percent done total) :
    Drawn shown? total (done + 1) percents where
  ascending := h.ascending
  mem_iff p := by
    rw [h.mem_iff]
    refine and_congr_left fun _ => ⟨?_, ?_⟩
    · rintro ⟨current, hle, rfl⟩
      exact ⟨current, Nat.le_succ_of_le hle, rfl⟩
    · rintro ⟨current, hle, rfl⟩
      rcases Nat.le_succ_iff.1 hle with hle | rfl
      · exact ⟨current, hle, rfl⟩
      · exact ⟨done, Nat.le_refl done, hsame.symm⟩
  getLast? := by
    rw [hsame]
    exact h.getLast?

theorem Drawn.raised (h : Drawn shown? total done percents)
    (hlt : percent done total < percent (done + 1) total) :
    Drawn shown? total (done + 1) (percents ++ [percent (done + 1) total]) where
  ascending := by
    refine List.pairwise_append.2 ⟨h.ascending, List.pairwise_singleton .., fun p hp q hq => ?_⟩
    rw [List.mem_singleton.1 hq]
    exact Nat.lt_of_le_of_lt (h.le hp) hlt
  mem_iff p := by
    rw [List.mem_append, h.mem_iff, List.mem_singleton]
    constructor
    · rintro (⟨⟨current, hle, hp⟩, hnot⟩ | rfl)
      · exact ⟨⟨current, Nat.le_succ_of_le hle, hp⟩, hnot⟩
      · -- what is shown at the start is no more than what is done before
        have hstart : percent 0 total ≤ percent done total := percent_mono (Nat.zero_le done)
        exact ⟨⟨done + 1, Nat.le_refl _, rfl⟩, fun hsame => by omega⟩
    · rintro ⟨⟨current, hle, hp⟩, hnot⟩
      rcases Nat.le_succ_iff.1 hle with hle | rfl
      · exact .inl ⟨⟨current, hle, hp⟩, hnot⟩
      · exact .inr hp.symm
  getLast? := .inl List.getLast?_concat

/-- One more unit draws its percentage if this is greater than the one before. -/
theorem Drawn.next (h : Drawn shown? total done percents) : ∃ percents',
    drawings percents ++ (draw (some (percent done total)) (.update (done + 1) total)).1 =
      drawings percents' ∧ Drawn shown? total (done + 1) percents' := by
  rw [draw_text]
  by_cases hsame : percent done total = percent (done + 1) total
  · refine ⟨percents, ?_, h.same hsame.symm⟩
    rw [if_pos (congrArg some hsame), String.append_empty]
  · have hlt : percent done total < percent (done + 1) total :=
      Nat.lt_of_le_of_ne (percent_mono (Nat.le_succ done)) hsame
    refine ⟨_, ?_, h.raised hlt⟩
    rw [if_neg fun heq => hsame (Option.some.inj heq), drawings_concat]

theorem shownAfter_updates (before : List ProgressCall) (total done : Nat) :
    shownAfter (before ++ Run.updates total done) = some (percent done total) := by
  cases done with
  | zero => exact shownAfter_concat_update before 0 total
  | succ done =>
    rw [Run.updates_succ, ← List.append_assoc]
    exact shownAfter_concat_update (before ++ Run.updates total done) (done + 1) total

/-- A run of updates, after whatever was drawn before it. -/
theorem exists_drawn (before : List ProgressCall) (total done : Nat) : ∃ percents,
    drawAll (before ++ Run.updates total done) = drawAll before ++ drawings percents ∧
    Drawn (shownAfter before) total done percents := by
  induction done with
  | zero =>
    obtain ⟨percents, htext, hdrawn⟩ := exists_drawn_zero (shownAfter before) total
    refine ⟨percents, ?_, hdrawn⟩
    rw [← htext]
    exact drawAll_concat before (.update 0 total)
  | succ done ih =>
    obtain ⟨percents, htext, hdrawn⟩ := ih
    obtain ⟨percents', hmore, hdrawn'⟩ := hdrawn.next
    refine ⟨percents', ?_, hdrawn'⟩
    rw [Run.updates_succ, ← List.append_assoc, drawAll_concat, shownAfter_updates, htext,
      String.append_assoc, hmore]

/-- If a hundredfold of all units fits in a word, each bar of a run can be calculated. -/
theorem render?_of_total {total : UInt64} (hfits : total.toNat * 100 < UInt64.size)
    (current : UInt64) : render? current total =
      some (line (percent current.toNat total.toNat),
        .ofNat (percent current.toNat total.toNat)) := by
  have hle : min current.toNat total.toNat ≤ total.toNat := Nat.min_le_right ..
  rw [render?_eq, if_pos (by omega)]

/-- Whenever a hundredfold of what is done fits in a machine word, and only then, each step of the
calculation has a result, which is the bar. There are forty characters between its brackets and
forty-seven in all; the percentage is a hundred at most, it is that just if there is nothing to do
or all is done, and it does not fall while units are counted. So a run of updates draws percentages
in strictly ascending order, each one that is reached once, and the last one is a hundred. Only on a
bar that shows the first one already is that one not drawn again. -/
theorem bar_of_counters :
    (∀ current total : UInt64, render? current total =
      if min current.toNat total.toNat * 100 < UInt64.size then
        some (line (percent current.toNat total.toNat), .ofNat (percent current.toNat total.toNat))
      else none) ∧
    (∀ current total, ∃ bar,
      line (percent current total) = "[" ++ bar ++ "] " ++
        Highlight.alignRight 3 (percent current total) ++ "%" ∧
      bar.length = 40 ∧ (∀ c ∈ bar.toList, c = '=' ∨ c = '>' ∨ c = ' ') ∧
      (line (percent current total)).length = 47) ∧
    (∀ current total, percent current total ≤ 100 ∧
      (percent current total = 100 ↔ total = 0 ∨ total ≤ current)) ∧
    (∀ current later total, current ≤ later → percent current total ≤ percent later total) ∧
    ∀ (before : List ProgressCall) (total : UInt64), total.toNat * 100 < UInt64.size →
      (∀ current, render? current total =
        some (line (percent current.toNat total.toNat),
          .ofNat (percent current.toNat total.toNat))) ∧
      ∃ percents : List Nat,
        drawAll (before ++ Run.updates total.toNat total.toNat) =
          drawAll before ++ String.join (percents.map fun p => clearLine ++ line p) ∧
        percents.Pairwise (· < ·) ∧
        (∀ p, p ∈ percents ↔ (∃ current ≤ total.toNat, percent current total.toNat = p) ∧
          ¬(shownAfter before = some p ∧ p = percent 0 total.toNat)) ∧
        (percents.getLast? = some 100 ∨ shownAfter before = some 100 ∧ total = 0) := by
  refine ⟨render?_eq, ?_, ?_, ?_, ?_⟩
  · intro current total
    exact ⟨body (percent current total), rfl, length_body _, fun c => mem_body,
      length_line (percent_le current total)⟩
  · intro current total
    exact ⟨percent_le current total, percent_eq_iff⟩
  · intro current later total h
    exact percent_mono h
  · intro before total hfits
    refine ⟨render?_of_total hfits, ?_⟩
    obtain ⟨percents, htext, hdrawn⟩ := exists_drawn before total.toNat total.toNat
    have hall : percent total.toNat total.toNat = 100 := percent_eq_iff.2 (.inr (Nat.le_refl _))
    refine ⟨percents, htext, hdrawn.ascending, hdrawn.mem_iff, ?_⟩
    rcases hdrawn.getLast? with hlast | ⟨hshown, hstart⟩
    · exact .inl (hall ▸ hlast)
    · have hnothing : total.toNat = 0 ∨ total.toNat ≤ 0 :=
        percent_eq_iff.1 (hstart.symm.trans hall)
      have hzero : total.toNat = 0 := by omega
      exact .inr ⟨hall ▸ hshown, UInt64.toNat_inj.1 hzero⟩

/-- A bar at the last cell but one, and words whose hundredfold is none. -/
example : body 99 = "=======================================>" ∧ percent 199 200 = 99 ∧
    percent? 200000000000000000 300000000000000000 = none := by decide

end DocSite.Bar
