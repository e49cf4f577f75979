import FileGateway.Duration.Printer
import FileGateway.Duration.Reader

/-!
# Reading a written duration

Every duration is read as what it was written for. The scan of a text of parts adds up what its
parts are worth (`Scan.reads_parts`); the nine parts of a duration are together worth the duration
(`worth_parts`), and no sum on the way is too large because none exceeds it.
-/

namespace FileGateway

/-- The nanoseconds of one unit. -/
def TimeUnit.nanos (unit : TimeUnit) : Nat :=
  unit.scale.factor * if unit.scale.inSeconds then nanosPerSecond else 1

theorem TimeUnit.nanos_of_seconds {unit : TimeUnit} {factor : Nat}
    (h : unit.scale = ⟨factor, true⟩) : unit.nanos = factor * nanosPerSecond := by
  rw [nanos, h, if_pos rfl]

theorem TimeUnit.nanos_of_fine {unit : TimeUnit} {factor : Nat}
    (h : unit.scale = ⟨factor, false⟩) : unit.nanos = factor := by
  rw [nanos, h, if_neg Bool.false_ne_true, Nat.mul_one]

theorem TimeUnit.scale_cases (unit : TimeUnit) :
    ∃ factor > 0, unit.scale = ⟨factor, true⟩ ∨ unit.scale = ⟨factor, false⟩ := by
  refine ⟨unit.scale.factor, ?_, ?_⟩ <;> cases unit <;> simp [scale]

namespace Duration

/-! ## One part -/

/-- Whether a character can only go on with the name of a unit. -/
def isPlainLetter (c : Char) : Bool :=
  isUnitLetter c && !c.isDigit && !Text.isBlank c

theorem isPlainLetter_iff {c : Char} : isPlainLetter c = true ↔
    isUnitLetter c = true ∧ c.isDigit = false ∧ Text.isBlank c = false := by
  simp [isPlainLetter, and_assoc]

/-- Both forms of a name are read as that of a unit. -/
def PartName.Names (name : PartName) (unit : TimeUnit) : Prop :=
  ∀ form ∈ [name.one, name.many],
    TimeUnit.ofName? form = some unit ∧ form.toList ≠ [] ∧
      form.toList.all isPlainLetter = true

instance (name : PartName) (unit : TimeUnit) : Decidable (name.Names unit) :=
  inferInstanceAs (Decidable (∀ form ∈ [name.one, name.many], _))

/-- A part that is read as a number of units. What is counted in nanoseconds is less than a
second. -/
structure Readable (part : Nat × PartName) (unit : TimeUnit) : Prop where
  names : part.2.Names unit
  short : unit.scale.inSeconds = false → part.1 * unit.nanos < nanosPerSecond

/-- The name that a part is written with. -/
def formOf (part : Nat × PartName) : String :=
  if part.1 = 1 then part.2.one else part.2.many

theorem writePart_eq (part : Nat × PartName) : writePart part = toString part.1 ++ formOf part :=
  rfl

theorem Readable.form {part : Nat × PartName} {unit : TimeUnit} (h : Readable part unit) :
    TimeUnit.ofName? (formOf part) = some unit ∧ (formOf part).toList ≠ [] ∧
      (formOf part).toList.all isPlainLetter = true := by
  refine h.names _ ?_
  unfold formOf
  split <;> simp

theorem Readable.lt_word64 {part : Nat × PartName} {unit : TimeUnit} (h : Readable part unit)
    (hlimit : part.1 * unit.nanos < durationLimit) : part.1 < word64 := by
  have hle : ∀ factor > 0, part.1 ≤ part.1 * factor := fun factor hpos =>
    Nat.le_mul_of_pos_right part.1 hpos
  obtain ⟨factor, hpos, hscale | hscale⟩ := unit.scale_cases
  · rw [TimeUnit.nanos_of_seconds hscale, ← Nat.mul_assoc] at hlimit
    exact Nat.lt_of_le_of_lt (hle factor hpos) (Nat.lt_of_mul_lt_mul_right hlimit)
  · have hshort := h.short (congrArg TimeScale.inSeconds hscale)
    rw [TimeUnit.nanos_of_fine hscale] at hshort
    have hfew := hle factor hpos
    unfold nanosPerSecond at hshort
    unfold word64
    omega

theorem word_eq_ok {n : Nat} (h : n < word64) : word n = .ok n := by
  rw [word, if_pos h]

/-- An amount is added if neither it nor the sum is too large. -/
theorem extend_eq_ok {total amount : Nat} {inSeconds : Bool} (hamount : amount < word64)
    (hfine : total % nanosPerSecond + (if inSeconds then 0 else amount) < word64)
    (hsum : total + (if inSeconds then amount * nanosPerSecond else amount) < durationLimit) :
    extend total amount inSeconds =
      .ok (total + if inSeconds then amount * nanosPerSecond else amount) := by
  simp only [extend, word_eq_ok hamount, word_eq_ok hfine, bind, Except.bind, if_pos hsum]

/-- A span is added if the sum is a duration. -/
theorem addSpan_eq_ok {total n : Nat} {unit : TimeUnit} {form : String}
    (hname : TimeUnit.ofName? form = some unit)
    (hshort : unit.scale.inSeconds = false → n * unit.nanos < nanosPerSecond)
    (hsum : total + n * unit.nanos < durationLimit) :
    addSpan total n none form = .ok (total + n * unit.nanos) := by
  have hrest : total % nanosPerSecond < nanosPerSecond := Nat.mod_lt _ (by decide)
  have hextend : extend total (n * unit.scale.factor) unit.scale.inSeconds =
      .ok (total + n * unit.nanos) := by
    obtain ⟨factor, -, hscale | hscale⟩ := unit.scale_cases
    · rw [TimeUnit.nanos_of_seconds hscale, ← Nat.mul_assoc] at hsum ⊢
      rw [hscale]
      refine extend_eq_ok ?_ ?_ hsum
      · dsimp only
        unfold durationLimit nanosPerSecond word64 at *
        omega
      · rw [if_pos rfl]
        unfold nanosPerSecond word64 at *
        omega
    · have hamount := hshort (congrArg TimeScale.inSeconds hscale)
      rw [TimeUnit.nanos_of_fine hscale] at hsum hamount ⊢
      rw [hscale]
      refine extend_eq_ok ?_ ?_ hsum
      · dsimp only
        unfold nanosPerSecond word64 at *
        omega
      · rw [if_neg Bool.false_ne_true]
        dsimp only
        unfold nanosPerSecond word64 at *
        omega
  simp only [addSpan, hname, hextend, bind, Except.bind]

namespace Scan

theorem le_foldl_digits (digits : List Char) (value : Nat) :
    value ≤ digits.foldl (fun n c => n * 10 + digitValue c) value := by
  induction digits generalizing value with
  | nil => exact Nat.le_refl value
  | cons c digits ih =>
    have hrest := ih (value * 10 + digitValue c)
    rw [List.foldl_cons]
    omega

/-- Digits are taken into the number in front of them. -/
theorem reads_digits (digits : List Char) (hall : ∀ c ∈ digits, c.isDigit = true)
    (offset : Nat) (total : Option Nat) (value : Nat)
    (hword : digits.foldl (fun n c => n * 10 + digitValue c) value < word64) :
    ∃ reached, digits.foldlM step ⟨offset, total, .whole value⟩ =
      .ok ⟨reached, total, .whole (digits.foldl (fun n c => n * 10 + digitValue c) value)⟩ := by
  induction digits generalizing offset value with
  | nil => exact ⟨offset, rfl⟩
  | cons c digits ih =>
    have hc := hall c List.mem_cons_self
    have hvalue : value * 10 + digitValue c < word64 :=
      Nat.lt_of_le_of_lt (le_foldl_digits digits _) hword
    have hstep : step ⟨offset, total, .whole value⟩ c =
        .ok ⟨offset + c.utf8Size, total, .whole (value * 10 + digitValue c)⟩ := by
      simp only [step, hc, if_true, word_eq_ok hvalue]
      rfl
    obtain ⟨reached, hreached⟩ := ih (fun d hd => hall d (List.mem_cons_of_mem c hd))
      (offset + c.utf8Size) (value * 10 + digitValue c) hword
    refine ⟨reached, ?_⟩
    rw [List.foldlM_cons, hstep]
    exact hreached

/-- The letters of a unit are collected. -/
theorem reads_letters (letters : List Char) (hall : letters.all isPlainLetter = true)
    (offset : Nat) (total : Option Nat) (value : Nat) (before : List Char) :
    ∃ reached, letters.foldlM step ⟨offset, total, .unit value none before⟩ =
      .ok ⟨reached, total, .unit value none (letters.reverse ++ before)⟩ := by
  induction letters generalizing offset before with
  | nil => exact ⟨offset, rfl⟩
  | cons c letters ih =>
    rw [List.all_cons, Bool.and_eq_true, isPlainLetter_iff] at hall
    obtain ⟨⟨hletter, hdigit, hblank⟩, hrest⟩ := hall
    have hstep : step ⟨offset, total, .unit value none before⟩ c =
        .ok ⟨offset + c.utf8Size, total, .unit value none (c :: before)⟩ := by
      simp [step, hletter, hdigit, hblank]
    obtain ⟨reached, hreached⟩ := ih hrest (offset + c.utf8Size) (c :: before)
    refine ⟨reached, ?_⟩
    rw [List.foldlM_cons, hstep, List.reverse_cons, List.append_assoc]
    exact hreached

/-- A number and a unit are read where a span is looked for. -/
theorem reads_part {n : Nat} {form : String} (hword : n < word64) (hne : form.toList ≠ [])
    (hall : form.toList.all isPlainLetter = true) (offset since : Nat) (total : Option Nat) :
    ∃ reached, (toString n ++ form).toList.foldlM step ⟨offset, total, .seeking since⟩ =
      .ok ⟨reached, total, .unit n none form.toList.reverse⟩ := by
  have hdigits : ∀ c ∈ Nat.toDigits 10 n, c.isDigit = true := fun c hc =>
    Nat.isDigit_of_mem_toDigits (by decide) (by decide) hc
  have hvalue : (Nat.toDigits 10 n).foldl (fun n c => n * 10 + digitValue c) 0 = n := by
    have hread := Nat.ofDigitChars_ten_toDigits (n := n)
    rw [Nat.ofDigitChars_eq_foldl] at hread
    simpa only [digitValue, Nat.mul_comm] using hread
  rw [String.toList_append, Nat.toString_eq_repr, Nat.toList_repr, List.foldlM_append]
  cases hfront : Nat.toDigits 10 n with
  | nil => exact absurd hfront Nat.toDigits_ne_nil
  | cons c front =>
    rw [hfront] at hdigits hvalue
    have hc := hdigits c List.mem_cons_self
    have hstart : step ⟨offset, total, .seeking since⟩ c =
        .ok ⟨offset + c.utf8Size, total, .whole (digitValue c)⟩ := by
      simp only [step, hc, if_true]
    have hrest : front.foldl (fun n c => n * 10 + digitValue c) (digitValue c) = n := by
      rw [List.foldl_cons, Nat.zero_mul, Nat.zero_add] at hvalue
      exact hvalue
    obtain ⟨middle, hmiddle⟩ := reads_digits front
      (fun d hd => hdigits d (List.mem_cons_of_mem c hd)) (offset + c.utf8Size) total
      (digitValue c) (hrest ▸ hword)
    rw [hrest] at hmiddle
    cases hform : form.toList with
    | nil => exact absurd hform hne
    | cons l letters =>
      rw [hform, List.all_cons, Bool.and_eq_true, isPlainLetter_iff] at hall
      obtain ⟨⟨hletter, hdigit, hblank⟩, hletters⟩ := hall
      have hunit : step ⟨middle, total, .whole n⟩ l =
          .ok ⟨middle + l.utf8Size, total, .unit n none [l]⟩ := by
        simp [step, hletter, hdigit, hblank]
      obtain ⟨reached, hreached⟩ := reads_letters letters hletters (middle + l.utf8Size) total n [l]
      refine ⟨reached, ?_⟩
      rw [List.foldlM_cons, hstart]
      change ((List.foldlM step _ front) >>= _) = _
      rw [hmiddle]
      change List.foldlM step _ (l :: letters) = _
      rw [List.foldlM_cons, hunit, List.reverse_cons]
      exact hreached

/-- What parts are worth together. -/
def worth : List ((Nat × PartName) × TimeUnit) → Nat
  | [] => 0
  | (part, unit) :: rest => part.1 * unit.nanos + worth rest

/-- The text of parts is read as what they are worth, on top of what stands before them. -/
theorem reads_parts (parts : List ((Nat × PartName) × TimeUnit)) (hne : parts ≠ [])
    (hreadable : ∀ p ∈ parts, Readable p.1 p.2) (offset since : Nat) (total : Option Nat)
    (hsum : total.getD 0 + worth parts < durationLimit) :
    ((" ".intercalate (parts.map fun p => writePart p.1)).toList.foldlM step
        ⟨offset, total, .seeking since⟩ >>= finish) = .ok (total.getD 0 + worth parts) := by
  induction parts generalizing offset since total with
  | nil => exact absurd rfl hne
  | cons p rest ih =>
    obtain ⟨part, unit⟩ := p
    have hpart : Readable part unit := hreadable (part, unit) List.mem_cons_self
    rw [worth, ← Nat.add_assoc] at hsum ⊢
    have hfirst : total.getD 0 + part.1 * unit.nanos < durationLimit :=
      Nat.lt_of_le_of_lt (Nat.le_add_right _ _) hsum
    have hcount := hpart.lt_word64 (Nat.lt_of_le_of_lt (Nat.le_add_left _ _) hfirst)
    obtain ⟨hname, hform, hletters⟩ := hpart.form
    have hspan := addSpan_eq_ok hname hpart.short hfirst
    obtain ⟨reached, hreached⟩ := reads_part hcount hform hletters offset since total
    have hclose : addSpan (total.getD 0) part.1 none
        (String.ofList (formOf part).toList.reverse.reverse) =
          .ok (total.getD 0 + part.1 * unit.nanos) := by
      rw [List.reverse_reverse, String.ofList_toList]
      exact hspan
    cases rest with
    | nil =>
      rw [List.map_singleton, String.intercalate_singleton, writePart_eq, hreached, worth]
      exact hclose
    | cons q rest =>
      have hrest := ih (List.cons_ne_nil _ _) (fun p hp => hreadable p (List.mem_cons_of_mem _ hp))
        (reached + ' '.utf8Size) (reached + ' '.utf8Size)
        (some (total.getD 0 + part.1 * unit.nanos)) hsum
      -- the blank closes the span
      have hblank : step ⟨reached, total, .unit part.1 none (formOf part).toList.reverse⟩ ' ' =
          .ok ⟨reached + ' '.utf8Size, some (total.getD 0 + part.1 * unit.nanos),
            .seeking (reached + ' '.utf8Size)⟩ := by
        have hisBlank : Text.isBlank ' ' = true := by decide
        have hisDigit : ' '.isDigit = false := by decide
        simp only [step, hisBlank, hisDigit, Bool.false_eq_true, if_false, if_true, closeSpan,
          hclose, bind, Except.bind]
        rfl
      rw [List.map_cons, List.map_cons, String.intercalate_cons_cons, String.toList_append,
        String.toList_append, writePart_eq, List.foldlM_append, List.foldlM_append, hreached]
      change (((step ⟨reached, total, .unit part.1 none (formOf part).toList.reverse⟩ ' ') >>=
        fun s => List.foldlM step s []) >>= fun s => List.foldlM step s _) >>= finish = _
      rw [hblank]
      exact hrest

end Scan

/-- The units of the parts of a duration. -/
def units : List TimeUnit :=
  [.year, .month, .day, .hour, .minute, .second, .millisecond, .microsecond, .nanosecond]

theorem readable_parts (d : Duration) : ∀ p ∈ d.parts.zip units, Readable p.1 p.2 := by
  have hnames : ∀ p ∈ [(PartName.counted "year", TimeUnit.year), (.counted "month", .month),
      (.counted "day", .day), (.plain "h", .hour), (.plain "m", .minute), (.plain "s", .second),
      (.plain "ms", .millisecond), (.plain "us", .microsecond), (.plain "ns", .nanosecond)],
      p.1.Names p.2 := by
    decide
  simp only [List.mem_cons, List.not_mem_nil, or_false, forall_eq_or_imp, forall_eq] at hnames
  obtain ⟨hyear, hmonth, hday, hhour, hminute, hsecond, hms, hus, hns⟩ := hnames
  have hlimit : d.subsecondNanos < nanosPerSecond := Nat.mod_lt _ (by decide)
  simp only [parts, units, List.zip_cons_cons, List.zip_nil_left, List.mem_cons,
    List.not_mem_nil, or_false, forall_eq_or_imp, forall_eq]
  refine ⟨⟨hyear, nofun⟩, ⟨hmonth, nofun⟩, ⟨hday, nofun⟩, ⟨hhour, nofun⟩, ⟨hminute, nofun⟩,
    ⟨hsecond, nofun⟩, ⟨hms, fun _ => ?_⟩, ⟨hus, fun _ => ?_⟩, ⟨hns, fun _ => ?_⟩⟩
  all_goals
    rw [TimeUnit.nanos_of_fine rfl]
    omega

/-- The parts of a duration are together worth the duration. -/
theorem worth_parts (d : Duration) : Scan.worth (d.parts.zip units) = d.nanos := by
  have hwhole : d.seconds * nanosPerSecond + d.subsecondNanos = d.nanos :=
    Nat.div_add_mod' d.nanos nanosPerSecond
  simp only [parts, units, List.zip_cons_cons, List.zip_nil_left]
  rw [Scan.worth, Scan.worth, Scan.worth, Scan.worth, Scan.worth,
    Scan.worth, Scan.worth, Scan.worth, Scan.worth, Scan.worth,
    TimeUnit.nanos_of_seconds rfl, TimeUnit.nanos_of_seconds rfl, TimeUnit.nanos_of_seconds rfl,
    TimeUnit.nanos_of_seconds rfl, TimeUnit.nanos_of_seconds rfl, TimeUnit.nanos_of_seconds rfl,
    TimeUnit.nanos_of_fine rfl, TimeUnit.nanos_of_fine rfl, TimeUnit.nanos_of_fine rfl]
  refine Eq.trans ?_ hwhole
  generalize d.seconds = s
  generalize d.subsecondNanos = n
  unfold nanosPerSecond
  omega

/-- Parts of which there are none are worth nothing. -/
theorem worth_filter (parts : List ((Nat × PartName) × TimeUnit)) :
    Scan.worth (parts.filter fun p => p.1.1 ≠ 0) = Scan.worth parts := by
  induction parts with
  | nil => rfl
  | cons p rest ih =>
    obtain ⟨part, unit⟩ := p
    rw [List.filter_cons]
    split
    · rw [Scan.worth, Scan.worth, ih]
    · next hzero =>
      have hnone : part.1 = 0 := by simpa using hzero
      rw [Scan.worth, ih, hnone, Nat.zero_mul, Nat.zero_add]

/-- A duration is written as parts that are together worth it. -/
theorem write_eq (d : Duration) : ∃ parts : List ((Nat × PartName) × TimeUnit),
    parts ≠ [] ∧ (∀ p ∈ parts, Readable p.1 p.2) ∧ Scan.worth parts = d.nanos ∧
      d.write = " ".intercalate (parts.map fun p => writePart p.1) := by
  have hparts : (d.parts.zip units).map Prod.fst = d.parts := rfl
  have hfilter : d.parts.filter (·.1 ≠ 0) =
      ((d.parts.zip units).filter fun p => p.1.1 ≠ 0).map Prod.fst := by
    conv => lhs; rw [← hparts]
    exact List.filter_map
  have hworth : Scan.worth ((d.parts.zip units).filter fun p => p.1.1 ≠ 0) = d.nanos := by
    rw [worth_filter, worth_parts]
  have hreadable : ∀ p ∈ (d.parts.zip units).filter fun p => p.1.1 ≠ 0, Readable p.1 p.2 :=
    fun p hp => readable_parts d p (List.mem_filter.1 hp).1
  unfold write
  rw [hfilter]
  cases hnonzero : (d.parts.zip units).filter fun p => p.1.1 ≠ 0 with
  | nil =>
    -- no time at all is written as a part that there is none of
    rw [hnonzero] at hworth
    have hseconds : Readable (0, .plain "s") .second := ⟨by decide, nofun⟩
    refine ⟨[((0, .plain "s"), .second)], List.cons_ne_nil _ _, ?_, ?_, ?_⟩
    · intro p hp
      rw [List.mem_singleton.1 hp]
      exact hseconds
    · rw [Scan.worth, Nat.zero_mul, ← hworth, Scan.worth]
    · rw [List.map_singleton, String.intercalate_singleton]
      rfl
  | cons p rest =>
    rw [hnonzero] at hworth hreadable
    refine ⟨p :: rest, List.cons_ne_nil _ _, hreadable, hworth, ?_⟩
    change " ".intercalate ((List.map Prod.fst (p :: rest)).map writePart) = _
    rw [List.map_map]
    rfl

/-- A duration is read as what it was written for. -/
theorem read_write (d : Duration) : read d.write = .ok d := by
  obtain ⟨parts, hne, hreadable, hworth, hwrite⟩ := write_eq d
  have hsum : (none : Option Nat).getD 0 + Scan.worth parts < durationLimit := by
    rw [Option.getD_none, Nat.zero_add, hworth]
    exact d.bounded
  have hreads := Scan.reads_parts parts hne hreadable 0 0 none hsum
  rw [Option.getD_none, Nat.zero_add, hworth, ← hwrite] at hreads
  have hnanos : readNanos d.write.toList = .ok d.nanos := by
    unfold readNanos
    split
    · next hzero =>
      rw [hzero] at hreads
      cases hreads
    · exact hreads
  have hof : ofNanos? d.nanos = some d := ofNanos?_eq_some_iff.2 rfl
  simp only [read, hnanos, hof, bind, Except.bind]

end Duration

end FileGateway
