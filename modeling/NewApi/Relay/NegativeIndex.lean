import NewApi.Lib.Text

/-!
# Negative indexes in override paths

`processNegativeIndex` finds the segments `-k` of a path and puts `n - k` in their place, where `n`
is the length of the array before them. It looks for that array under the text before the first
occurrence of `-k` in the path as it was given. So an array that is itself behind a negative index
is not found, and neither is one whose path has the text `-k` in it.

`negative_index_resolved` is about paths with at most one such segment. What `gjson` finds under a
path is an argument: the length of the array, if there is one.
-/

namespace NewApi.Relay

open Text

variable (arrayLength : List Char → Option Nat)

/-- `-\d+` at the start of a text. -/
def negativeIndex : List Char → Option (List Char)
  | '-' :: text =>
    if text.takeWhile Char.isDigit = [] then none else some ('-' :: text.takeWhile Char.isDigit)
  | _ => none

/-- `negativeIndexRegexp.FindAllStringSubmatch`. -/
def negativeIndexes : List Char → List (List Char)
  | [] => []
  | c :: text =>
    if c = '.' then (negativeIndex text).toList ++ negativeIndexes text else negativeIndexes text

/-- The body of the loop. -/
def replaceNegativeIndex (path result negIndex : List Char) : List Char :=
  let arrayPath := ((cutFirst negIndex path).map Prod.fst).getD path
  let arrayPath := (cutSuffix ['.'] arrayPath).getD arrayPath
  match arrayLength arrayPath, parseDigits negIndex.tail with
  | some length, some k =>
    if 0 < k ∧ k ≤ length then
      match cutFirst ('.' :: negIndex) result with
      | some (before, after) => before ++ '.' :: decimal (length - k) ++ after
      | none => result
    else result
  | _, _ => result

def processNegativeIndex (path : List Char) : List Char :=
  (negativeIndexes path).foldl (replaceNegativeIndex arrayLength path) path

/-! ## What the path stands for -/

/-- The `k` of a segment `-k`. -/
def segmentIndex (segment : List Char) : Option Nat :=
  if negativeIndex segment = some segment then parseDigits segment.tail else none

/-- A segment behind a resolved path. -/
def resolveSegment (resolved : List (List Char)) (segment : List Char) : List Char :=
  match arrayLength (join '.' resolved), segmentIndex segment with
  | some length, some k => if 0 < k ∧ k ≤ length then decimal (length - k) else segment
  | _, _ => segment

def resolveSegments (resolved : List (List Char)) : List (List Char) → List (List Char)
  | [] => resolved
  | segment :: rest =>
    resolveSegments (resolved ++ [resolveSegment arrayLength resolved segment]) rest

/-! ## Segments and text -/

theorem join_cons (first : List Char) (rest : List (List Char)) :
    join '.' (first :: rest) = first ++ rest.flatMap ('.' :: ·) := by
  induction rest generalizing first with
  | nil => simp [join]
  | cons segment rest ih => simp [join, ih]

theorem takeWhile_digits (text rest : List Char) :
    (text ++ '.' :: rest).takeWhile Char.isDigit = text.takeWhile Char.isDigit := by
  induction text with
  | nil => rfl
  | cons c text ih =>
    rw [List.cons_append, List.takeWhile_cons, List.takeWhile_cons, ih]

theorem negativeIndex_append (segment rest : List Char) :
    negativeIndex (segment ++ '.' :: rest) = negativeIndex segment := by
  cases segment with
  | nil => rfl
  | cons c text =>
    by_cases hc : c = '-'
    · subst hc
      simp only [List.cons_append, negativeIndex, takeWhile_digits]
    · simp [negativeIndex, hc]

theorem negativeIndexes_append {segment : List Char} (h : '.' ∉ segment) (rest : List Char) :
    negativeIndexes (segment ++ rest) = negativeIndexes rest := by
  induction segment with
  | nil => rfl
  | cons c text ih =>
    obtain ⟨hc, htext⟩ := not_or.mp (mt List.mem_cons.mpr h)
    rw [List.cons_append, negativeIndexes, if_neg (Ne.symm hc), ih htext]

/-- The expression finds the segments behind the first one that start like an index. -/
theorem negativeIndexes_join {first : List Char} {rest : List (List Char)}
    (h : ∀ segment ∈ first :: rest, '.' ∉ segment) :
    negativeIndexes (join '.' (first :: rest)) = rest.filterMap negativeIndex := by
  rw [join_cons, negativeIndexes_append (h first List.mem_cons_self)]
  induction rest with
  | nil => rfl
  | cons segment rest ih =>
    obtain ⟨hfirst, hsegment, hrest⟩ : '.' ∉ first ∧ '.' ∉ segment ∧ ∀ s ∈ rest, '.' ∉ s := by
      simpa using h
    have hhead : negativeIndex (segment ++ rest.flatMap ('.' :: ·)) = negativeIndex segment := by
      cases rest with
      | nil => exact congrArg negativeIndex (List.append_nil segment)
      | cons next rest => exact negativeIndex_append segment _
    rw [List.flatMap_cons, List.cons_append, negativeIndexes, if_pos rfl, hhead,
      negativeIndexes_append hsegment, ih (by simpa using ⟨hfirst, hrest⟩), List.filterMap_cons]
    cases negativeIndex segment <;> rfl

/-! ## The place of a segment -/

variable {part : List Char}

theorem cutFirst_here (hne : part ≠ []) (after : List Char) :
    cutFirst part (part ++ after) = some ([], after) := by
  cases part with
  | nil => exact absurd rfl hne
  | cons c part => simp [cutFirst, cutPrefix]

theorem cutFirst_later {c : Char} {text : List Char} (h : ¬part <+: c :: text) :
    cutFirst part (c :: text) = (cutFirst part text).map fun found => (c :: found.1, found.2) := by
  rw [cutFirst, cutPrefix, if_neg (mt List.isPrefixOf_iff_prefix.mp h)]

section

variable (hdot : '.' ∉ part)

include hdot

theorem prefix_of_append {before after : List Char} (h : part <+: before ++ '.' :: after) :
    part <+: before := by
  rcases Nat.le_total part.length before.length with hle | hle
  · exact List.prefix_of_prefix_length_le h (List.prefix_append _ _) hle
  · obtain ⟨more, rfl⟩ := List.prefix_of_prefix_length_le (List.prefix_append _ _) h hle
    cases more with
    | nil => exact (List.append_nil before).symm ▸ List.prefix_rfl
    | cons c more =>
      obtain ⟨tail, htail⟩ := (List.prefix_append_right_inj before).mp h
      cases htail
      exact absurd (by simp) hdot

theorem cutFirst_segment (hne : part ≠ []) {before : List Char}
    (hbefore : occursIn part before = false) (after : List Char) :
    cutFirst part (before ++ '.' :: (part ++ after)) = some (before ++ ['.'], after) ∧
      cutFirst ('.' :: part) (before ++ '.' :: (part ++ after)) = some (before, after) := by
  induction before with
  | nil =>
    have hnot : ¬part <+: '.' :: (part ++ after) := fun h =>
      hne (List.prefix_nil.mp (prefix_of_append hdot h))
    refine ⟨?_, cutFirst_here (List.cons_ne_nil _ _) after⟩
    rw [List.nil_append, cutFirst_later hnot, cutFirst_here hne]
    rfl
  | cons c before ih =>
    obtain ⟨hhere, hlater⟩ := Bool.or_eq_false_iff.mp hbefore
    obtain ⟨hpart, hdotted⟩ := ih hlater
    have hnot : ¬part <+: c :: (before ++ '.' :: (part ++ after)) := fun h =>
      Bool.eq_false_iff.mp hhere (List.isPrefixOf_iff_prefix.mpr
        (@prefix_of_append part hdot (c :: before) _ h))
    have hnot' : ¬('.' :: part <+: c :: (before ++ '.' :: (part ++ after))) := by
      intro h
      have hpart := prefix_of_append hdot (List.cons_prefix_cons.mp h).2
      cases before with
      | nil => exact hne (List.prefix_nil.mp hpart)
      | cons d before =>
        exact Bool.eq_false_iff.mp (Bool.or_eq_false_iff.mp hlater).1
          (List.isPrefixOf_iff_prefix.mpr hpart)
    rw [List.cons_append, cutFirst_later hnot, cutFirst_later hnot', hpart, hdotted]
    exact ⟨rfl, rfl⟩

end

/-! ## Paths with one index -/

variable {arrayLength} {resolved before after : List (List Char)} {segment : List Char}

theorem resolveSegment_plain (h : negativeIndex segment = none) :
    resolveSegment arrayLength resolved segment = segment := by
  have hnone : segmentIndex segment = none :=
    if_neg (by rw [h]; exact Option.some_ne_none _ ∘ Eq.symm)
  rw [resolveSegment, hnone]
  split
  next hsome => cases hsome
  · rfl

theorem resolveSegments_plain (h : ∀ segment ∈ before, negativeIndex segment = none)
    (rest : List (List Char)) :
    resolveSegments arrayLength resolved (before ++ rest) =
      resolveSegments arrayLength (resolved ++ before) rest := by
  induction before generalizing resolved with
  | nil => rw [List.append_nil, List.nil_append]
  | cons segment before ih =>
    obtain ⟨hsegment, hbefore⟩ := List.forall_mem_cons.mp h
    rw [List.cons_append, resolveSegments, resolveSegment_plain hsegment, ih hbefore,
      List.append_assoc]
    rfl

theorem join_segment (first : List Char) (before : List (List Char)) (segment : List Char)
    (after : List (List Char)) : join '.' (first :: (before ++ segment :: after)) =
      join '.' (first :: before) ++ '.' :: (segment ++ after.flatMap ('.' :: ·)) := by
  simp [join_cons, List.flatMap_append]

/-- The array of a segment is looked for under the text before it, and its text is replaced if it
is the first one of its kind. -/
theorem replaceNegativeIndex_segment {first : List Char} (hdot : '.' ∉ segment)
    (hindex : negativeIndex segment = some segment)
    (hfresh : occursIn segment (join '.' (first :: before)) = false) (after : List (List Char)) :
    let path := join '.' (first :: (before ++ segment :: after))
    replaceNegativeIndex arrayLength path path segment = join '.'
        (first :: (before ++ resolveSegment arrayLength (first :: before) segment :: after)) ∧
      (arrayLength (join '.' (first :: before)) = none →
        ∀ result, replaceNegativeIndex arrayLength path result segment = result) := by
  have hne : segment ≠ [] := by
    rintro rfl
    cases hindex
  obtain ⟨hcut, hcut'⟩ := cutFirst_segment hdot hne hfresh (after.flatMap ('.' :: ·))
  have hprefix : cutSuffix ['.'] (join '.' (first :: before) ++ ['.']) =
      some (join '.' (first :: before)) := by
    simp [cutSuffix, List.isSuffixOf_iff_suffix]
  simp only [join_segment, replaceNegativeIndex, hcut, hcut', Option.map_some, Option.getD_some,
    hprefix, resolveSegment, segmentIndex, if_pos hindex]
  refine ⟨?_, fun hnone result => by rw [hnone]⟩
  cases arrayLength (join '.' (first :: before)) with
  | none => rfl
  | some length =>
    cases parseDigits segment.tail with
    | none => rfl
    | some k =>
      dsimp only
      split
      · simp
      · rfl

theorem resolveSegments_end (h : ∀ segment ∈ after, negativeIndex segment = none) :
    resolveSegments arrayLength resolved after = resolved ++ after := by
  have happend := @resolveSegments_plain arrayLength resolved after h []
  rwa [List.append_nil] at happend

/-- A path in which at most one segment behind the first starts like a negative index. If there is
one, it is a whole segment, and its text is not in the path before it. -/
theorem negative_index_resolved (arrayLength : List Char → Option Nat) (first : List Char)
    (rest : List (List Char)) (hdots : ∀ s ∈ first :: rest, '.' ∉ s)
    (hrest : (∀ s ∈ rest, negativeIndex s = none) ∨ ∃ before segment after,
      rest = before ++ segment :: after ∧ (∀ s ∈ before, negativeIndex s = none) ∧
      (∀ s ∈ after, negativeIndex s = none) ∧ negativeIndex segment = some segment ∧
      occursIn segment (join '.' (first :: before)) = false) :
    processNegativeIndex arrayLength (join '.' (first :: rest)) =
      join '.' (resolveSegments arrayLength [first] rest) := by
  rw [processNegativeIndex, negativeIndexes_join hdots]
  rcases hrest with hnone | ⟨before, segment, after, rfl, hbefore, hafter, hindex, hfresh⟩
  · rw [List.filterMap_eq_nil_iff.mpr hnone, resolveSegments_end hnone]
    rfl
  · rw [resolveSegments_plain hbefore, resolveSegments, resolveSegments_end hafter,
      List.filterMap_append, List.filterMap_cons, List.filterMap_eq_nil_iff.mpr hbefore,
      List.filterMap_eq_nil_iff.mpr hafter, hindex]
    have hstep := (@replaceNegativeIndex_segment arrayLength before segment first
      (hdots segment (by simp)) hindex hfresh after).1
    exact hstep.trans (by simp)

/-- `gjson` finds no array under a path with a negative index. So the second of two indexes is not
resolved, and the path is right just where it does not fit its array. -/
theorem second_index_resolved_iff {first second : List Char} {between : List (List Char)}
    (hdoc : ∀ path, negativeIndexes path ≠ [] → arrayLength path = none)
    (hdots : ∀ s ∈ first :: (before ++ segment :: (between ++ second :: after)), '.' ∉ s)
    (hbefore : ∀ s ∈ before, negativeIndex s = none)
    (hbetween : ∀ s ∈ between, negativeIndex s = none)
    (hafter : ∀ s ∈ after, negativeIndex s = none) (hindex : negativeIndex segment = some segment)
    (hfresh : occursIn segment (join '.' (first :: before)) = false)
    (hsecond : negativeIndex second = some second)
    (hfresh' : occursIn second (join '.' (first :: (before ++ segment :: between))) = false) :
    processNegativeIndex arrayLength
        (join '.' (first :: (before ++ segment :: (between ++ second :: after)))) =
      join '.' (resolveSegments arrayLength [first]
        (before ++ segment :: (between ++ second :: after))) ↔
      resolveSegment arrayLength (first ::
        (before ++ resolveSegment arrayLength (first :: before) segment :: between)) second =
        second := by
  have hnone : arrayLength (join '.' (first :: (before ++ segment :: between))) = none := by
    refine hdoc _ ?_
    rw [negativeIndexes_join fun s hs => hdots s (by simp at hs ⊢; tauto)]
    simp [List.filterMap_append, hindex]
  have hstep := (@replaceNegativeIndex_segment arrayLength before segment first
    (hdots segment (by simp)) hindex hfresh (between ++ second :: after)).1
  have hkept := (@replaceNegativeIndex_segment arrayLength (before ++ segment :: between) second
    first (hdots second (by simp)) hsecond hfresh' after).2 hnone
  simp only [List.append_assoc, List.cons_append] at hkept
  rw [processNegativeIndex, negativeIndexes_join hdots, List.filterMap_append, List.filterMap_cons,
    List.filterMap_append, List.filterMap_cons, List.filterMap_eq_nil_iff.mpr hbefore,
    List.filterMap_eq_nil_iff.mpr hbetween, List.filterMap_eq_nil_iff.mpr hafter, hindex, hsecond,
    resolveSegments_plain hbefore, resolveSegments, resolveSegments_plain hbetween, resolveSegments,
    resolveSegments_end hafter]
  simp only [List.nil_append, List.foldl_cons, List.foldl_nil, hstep, hkept]
  simp [join_cons, List.flatMap_append, eq_comm]

/-- One message with a content of two parts. -/
def twoParts (path : List Char) : Option Nat :=
  if path = "messages".toList then some 1
  else if path = "messages.0.content".toList then some 2
  else none

theorem negative_index_resolved_last :
    processNegativeIndex twoParts "messages.-1.content".toList = "messages.0.content".toList := by
  exact negative_index_resolved twoParts "messages".toList ["-1".toList, "content".toList]
    (by decide) (.inr ⟨[], "-1".toList, ["content".toList], rfl, by decide, by decide, by decide,
      by decide⟩)

theorem second_negative_index_kept :
    processNegativeIndex twoParts "messages.-1.content.-2".toList =
        "messages.0.content.-2".toList ∧
      join '.' (resolveSegments twoParts ["messages".toList]
        ["-1".toList, "content".toList, "-2".toList]) = "messages.0.content.0".toList := by
  decide +kernel

end NewApi.Relay
