import LettuceKernel.Lib.InsertionSort
import LettuceKernel.TestReport
/-!
# The statistics of a benchmark, as the script collects them

| here | there |
| --- | --- |
| `benchStats`, `statsOf` | the sort in `print_bench_stats` (main.c:177), and what is read from the array behind it |
| `printBenchLine`  | `print_bench_line` (:167) |
| `printBenchStats` | the output of `print_bench_stats` |
| `benchmarkCompareU64`, `benchmarkPercentile` | `lettuce_benchmark_compare_u64` (benchmark_common.h:74), `lettuce_benchmark_percentile` (:81) |

The percentiles are cells of the sorted array, so their ranks among the samples fix them, in whatever order the samples were taken.
The mean is the quotient of a sum that wraps.
-/

namespace Lettuce

open InsertionSort Capture

/-- `BENCH_SAMPLES` (main.c:163). -/
def benchSamples : Nat := 50

structure BenchStats where
  p50 : BitVec 64
  p95 : BitVec 64
  p99 : BitVec 64
  mean : BitVec 64
  minT : BitVec 64
  maxT : BitVec 64

/-- The numbers read from the sorted array. -/
def statsOf (sorted : Nat → BitVec 64) : BenchStats where
  p50 := sorted (benchSamples / 2)
  p95 := sorted ((benchSamples * 95 + 99) / 100 - 1)
  p99 := sorted (benchSamples - 1)
  mean := (cells sorted benchSamples).foldl (fun sum t => sum + t) 0 / 50
  minT := sorted 0
  maxT := sorted (benchSamples - 1)

def benchStats (samples : Nat → BitVec 64) : BenchStats := statsOf (insertionRounds samples (benchSamples - 1))

def nanoseconds (t freq : BitVec 64) : BitVec 64 := if freq > 0 then t * 1000000000 / freq else 0

def printBenchLine (lbl : Text) (t freq : BitVec 64) : Text :=
  consolePuts lbl ++ decimal t ++ consolePuts (ascii " ticks (~") ++ decimal (nanoseconds t freq) ++ consolePuts (ascii " ns)" ++ [10])

/-- Case, p50, p95, p99, mean, min, max. -/
def printBenchRecord (letter : Text) (s : BenchStats) : Text :=
  consolePuts (ascii "BENCH,") ++ consolePuts letter ++ consolePuts (ascii ",") ++
    decimal s.p50 ++ consolePuts (ascii ",") ++ decimal s.p95 ++ consolePuts (ascii ",") ++
    decimal s.p99 ++ consolePuts (ascii ",") ++ decimal s.mean ++ consolePuts (ascii ",") ++
    decimal s.minT ++ consolePuts (ascii ",") ++ decimal s.maxT ++ consolePuts [10]

def printBenchStats (name : Text) (samples : Nat → BitVec 64) (freq : BitVec 64) : Text :=
  let s := benchStats samples
  consolePuts (ascii "--- ") ++ consolePuts name ++ consolePuts (ascii " ---" ++ [10]) ++
    printBenchLine (ascii "  p50:  ") s.p50 freq ++ printBenchLine (ascii "  p95:  ") s.p95 freq ++
    printBenchLine (ascii "  p99:  ") s.p99 freq ++ printBenchLine (ascii "  min:  ") s.minT freq ++
    printBenchLine (ascii "  max:  ") s.maxT freq ++ printBenchLine (ascii "  mean: ") s.mean freq ++
    if name.take 5 = ascii "Case " then printBenchRecord ((name.drop 5).take 1) s else []

/-- The fields of the record, behind the case. -/
def BenchStats.fields (s : BenchStats) : List Text := [s.p50, s.p95, s.p99, s.mean, s.minT, s.maxT].map decimal

/-- What the numbers say about fifty samples. -/
structure BenchStats.Describes (s : BenchStats) (samples : List (BitVec 64)) : Prop where
  p50 : HasRank samples 25 s.p50
  p95 : HasRank samples 47 s.p95
  p99 : HasRank samples 49 s.p99
  mean : s.mean.toNat = samples.foldl (fun sum t => sum + t.toNat) 0 % 2 ^ 64 / 50
  minT : HasRank samples 0 s.minT
  maxT : HasRank samples 49 s.maxT

instance {s : BenchStats} {samples : List (BitVec 64)} : Decidable (s.Describes samples) :=
  decidable_of_iff
    (HasRank samples 25 s.p50 ∧ HasRank samples 47 s.p95 ∧ HasRank samples 49 s.p99 ∧
      s.mean.toNat = samples.foldl (fun sum t => sum + t.toNat) 0 % 2 ^ 64 / 50 ∧ HasRank samples 0 s.minT ∧ HasRank samples 49 s.maxT)
    ⟨fun ⟨p50, p95, p99, mean, minT, maxT⟩ => ⟨p50, p95, p99, mean, minT, maxT⟩,
      fun h => ⟨h.p50, h.p95, h.p99, h.mean, h.minT, h.maxT⟩⟩

/-! ## The statistics -/

theorem toNat_foldl_add (samples : List (BitVec 64)) {acc : BitVec 64} {n : Nat} (h : acc.toNat = n % 2 ^ 64) :
    (samples.foldl (fun sum t => sum + t) acc).toNat = samples.foldl (fun sum t => sum + t.toNat) n % 2 ^ 64 := by
  induction samples generalizing acc n with
  | nil => exact h
  | cons t samples ih =>
    refine ih ?_
    rw [BitVec.toNat_add, h, Nat.mod_add_mod]

theorem statsOf_describes {sorted : Nat → BitVec 64} {samples : List (BitVec 64)}
    (hsorted : (cells sorted benchSamples).Pairwise (· ≤ ·)) (hperm : (cells sorted benchSamples).Perm samples) :
    (statsOf sorted).Describes samples := by
  have hrank : ∀ i, i < benchSamples → HasRank samples i (sorted i) := fun i hi => (hasRank_of_sorted hsorted hi).perm hperm
  refine ⟨hrank 25 (by decide), hrank 47 (by decide), hrank 49 (by decide), ?_, hrank 0 (by decide), hrank 49 (by decide)⟩
  have hzero : (0 : BitVec 64).toNat = 0 % 2 ^ 64 := rfl
  have horder := hperm.foldl_eq' (f := fun sum (t : BitVec 64) => sum + t.toNat)
    (fun x _ y _ sum => Nat.add_right_comm sum x.toNat y.toNat) 0
  rw [statsOf, BitVec.toNat_udiv, toNat_foldl_add _ hzero, horder]
  rfl

theorem benchStats_describes (samples : Nat → BitVec 64) : (benchStats samples).Describes (cells samples benchSamples) := by
  obtain ⟨hsorted, hperm, -⟩ := insertionRounds_spec samples (benchSamples - 1)
  exact statsOf_describes hsorted hperm

/-- The samples admit no other numbers. -/
theorem BenchStats.Describes.unique {s s' : BenchStats} {samples : List (BitVec 64)} (h : s.Describes samples)
    (h' : s'.Describes samples) : s = s' := by
  have hmean : s.mean = s'.mean := BitVec.eq_of_toNat_eq (h.mean.trans h'.mean.symm)
  cases s
  cases s'
  rw [BenchStats.mk.injEq]
  exact ⟨h.p50.unique h'.p50, h.p95.unique h'.p95, h.p99.unique h'.p99, hmean, h.minT.unique h'.minT, h.maxT.unique h'.maxT⟩

/-! ## The lines above the record -/

namespace Capture

variable {r : Record} {line : Text}

/-- NUL, the ends of lines, and a letter of each text that the script looks for. -/
def telling : Text := [0, 10, 13] ++ ascii "BTXl_"

/-- A line without these is nothing to the script. -/
theorem readLine_of_telling (h : ∀ character ∈ telling, character ∉ line) : readLine r line = r := by
  have hclear : ∀ character ∈ telling, character ∉ strip line :=
    fun character htelling hmem => h character htelling ((strip_sublist line).subset hmem)
  have hmark : mark r (strip line) = r := by
    refine mark_of_unmarked fun marker hmarker => ?_
    simp only [List.mem_cons, List.not_mem_nil, or_false] at hmarker
    rcases hmarker with rfl | rfl | rfl
    · exact contains_eq_false (by decide) (hclear 88 (by decide))
    · exact contains_eq_false (by decide) (hclear 108 (by decide))
    · exact contains_eq_false (by decide) (hclear 95 (by decide))
  have htest : ¬ ascii "TEST," <+: strip line := fun hbegins => hclear 84 (by decide) (hbegins.subset (by decide))
  have hbench : ¬ ascii "BENCH," <+: strip line := fun hbegins => hclear 66 (by decide) (hbegins.subset (by decide))
  rw [readLine, hmark, if_neg htest, if_neg hbench]

end Capture

def benchLabels : List Text := ["  p50:  ", "  p95:  ", "  p99:  ", "  min:  ", "  max:  ", "  mean: "].map ascii

theorem readFrom_printBenchLine {lbl : Text} (hlbl : lbl ∈ benchLabels) (t freq : BitVec 64) (r : Record) (rest : Text) :
    readFrom r (printBenchLine lbl t freq ++ rest) = readFrom r rest := by
  have hclear : ∀ character ∈ telling,
      character ∉ lbl ++ decimal t ++ ascii " ticks (~" ++ decimal (nanoseconds t freq) ++ ascii " ns)" := by
    intro character htelling
    have hnumber : ∀ value, character ∉ decimal value := not_mem_decimal (by revert character; decide)
    have htext : ∀ text ∈ ascii " ticks (~" :: ascii " ns)" :: benchLabels, character ∉ text := by
      clear hnumber
      revert character
      decide
    intro hmem
    simp only [List.mem_append] at hmem
    rcases hmem with (((hmem | hmem) | hmem) | hmem) | hmem
    · exact htext lbl (List.mem_cons_of_mem _ (List.mem_cons_of_mem _ hlbl)) hmem
    · exact hnumber _ hmem
    · exact htext _ (List.mem_cons_self ..) hmem
    · exact hnumber _ hmem
    · exact htext _ (List.mem_cons_of_mem _ (List.mem_cons_self ..)) hmem
  have hline : printBenchLine lbl t freq =
      lbl ++ decimal t ++ ascii " ticks (~" ++ decimal (nanoseconds t freq) ++ ascii " ns)" ++ [13, 10] := by
    have hlabel : ∀ lbl ∈ benchLabels, consolePuts lbl = lbl := by decide
    have hticks : consolePuts (ascii " ticks (~") = ascii " ticks (~" := by decide
    have hend : consolePuts (ascii " ns)" ++ [10]) = ascii " ns)" ++ [13, 10] := by decide
    rw [printBenchLine, hlabel lbl hlbl, hticks, hend, List.append_assoc _ (ascii " ns)")]
  rw [hline, readFrom_line, readLine_of_telling hclear]
  intro character hmem
  constructor
  · rintro rfl
    exact hclear 10 (by decide) hmem
  · rintro rfl
    exact hclear 13 (by decide) hmem

/-! ## The record -/

/-- A record without its line end. -/
def benchLine (letter : BitVec 8) (s : BenchStats) : Text := [44].intercalate (ascii "BENCH" :: [letter] :: s.fields)

theorem mem_fields {s : BenchStats} {field : Text} (h : field ∈ s.fields) : ∃ value, field = decimal value := by
  obtain ⟨value, -, rfl⟩ := List.mem_map.1 h
  exact ⟨value, rfl⟩

theorem printBenchRecord_eq {letter : BitVec 8} (hletter : consolePuts [letter] = [letter]) (s : BenchStats) :
    printBenchRecord [letter] s = benchLine letter s ++ [13, 10] := by
  have hfirst : consolePuts (ascii "BENCH,") = ascii "BENCH" ++ [44] := by decide
  have hcomma : consolePuts (ascii ",") = [44] := by decide
  have hfeed : consolePuts [10] = [13, 10] := by decide
  rw [printBenchRecord, hletter, hfirst, hcomma, hfeed, benchLine, BenchStats.fields]
  simp only [List.map_cons, List.map_nil, List.intercalate_cons_cons, List.intercalate_singleton, List.append_assoc, List.cons_append,
    List.nil_append]

namespace Capture

theorem mem_intercalate {sep character : BitVec 8} {texts : List Text} (h : character ∈ [sep].intercalate texts) :
    character = sep ∨ ∃ text ∈ texts, character ∈ text := by
  induction texts with
  | nil => exact absurd h List.not_mem_nil
  | cons text texts ih =>
    cases texts with
    | nil =>
      rw [List.intercalate_singleton] at h
      exact Or.inr ⟨text, List.mem_cons_self .., h⟩
    | cons next texts =>
      rw [List.intercalate_cons_cons, List.mem_append, List.mem_append, List.mem_singleton] at h
      rcases h with (h | h) | h
      · exact Or.inr ⟨text, List.mem_cons_self .., h⟩
      · exact Or.inl h
      · obtain h | ⟨later, hlater, h⟩ := ih h
        · exact Or.inl h
        · exact Or.inr ⟨later, List.mem_cons_of_mem _ hlater, h⟩

variable {r : Record} {letter : BitVec 8} {s : BenchStats}

theorem mem_benchLine {character : BitVec 8} (h : character ∈ benchLine letter s) :
    character ∈ ascii "BENCH," ∨ character = letter ∨ ∃ value, character ∈ decimal value := by
  obtain rfl | ⟨text, htext, hmem⟩ := mem_intercalate h
  · exact Or.inl (by decide)
  · rw [List.mem_cons, List.mem_cons] at htext
    have hword : ∀ character ∈ ascii "BENCH", character ∈ ascii "BENCH," := by decide
    rcases htext with rfl | rfl | htext
    · exact Or.inl (hword character hmem)
    · exact Or.inr (Or.inl (List.mem_singleton.1 hmem))
    · obtain ⟨value, rfl⟩ := mem_fields htext
      exact Or.inr (Or.inr ⟨value, hmem⟩)

theorem benchLine_spaceless (hletter : isSpace letter = false) : ∀ character ∈ benchLine letter s, isSpace character = false := by
  have hword : ∀ character ∈ ascii "BENCH,", isSpace character = false := by decide
  intro character hmem
  rcases mem_benchLine hmem with h | rfl | ⟨value, h⟩
  · exact hword character h
  · exact hletter
  · exact isSpace_decimal value character h

/-- Two markers have spaces, and the third has two characters that no record has beside its letter. -/
theorem benchLine_unmarked (hletter : isSpace letter = false) :
    ∀ marker ∈ [passText, allPassedText, failText], contains (benchLine letter s) marker = false := by
  have hspace : (32 : BitVec 8) ∉ benchLine letter s := fun hmem => by
    have h := benchLine_spaceless hletter 32 hmem
    revert h
    decide
  have hother : ∀ character : BitVec 8, character = 95 ∨ character = 82 → character ≠ letter → character ∉ benchLine letter s := by
    have hword : ∀ character ∈ ascii "BENCH,", ¬ (character = 95 ∨ character = 82) := by decide
    intro character hcharacter hne hmem
    rcases mem_benchLine hmem with h | h | ⟨value, h⟩
    · exact hword character h hcharacter
    · exact hne h
    · refine not_mem_decimal ?_ value h
      rcases hcharacter with rfl | rfl <;> decide
  intro marker hmarker
  simp only [List.mem_cons, List.not_mem_nil, or_false] at hmarker
  rcases hmarker with rfl | rfl | rfl
  · exact contains_eq_false (by decide) hspace
  · exact contains_eq_false (by decide) hspace
  · by_cases hscore : letter = 95
    · exact contains_eq_false (by decide) (hother 82 (Or.inr rfl) (by rw [hscore]; decide))
    · exact contains_eq_false (by decide) (hother 95 (Or.inl rfl) fun h => hscore h.symm)

/-- A record comes back field by field. -/
theorem readLine_benchLine (r : Record) (hcomma : letter ≠ 44) (hspace : isSpace letter = false) (s : BenchStats) :
    readLine r (benchLine letter s) = { r with benchmarks := r.benchmarks ++ [[letter] :: s.fields] } := by
  have htest : ¬ ascii "TEST," <+: benchLine letter s := fun h => absurd (List.cons_prefix_cons.1 h).1 (by decide)
  have hbench : ascii "BENCH," <+: benchLine letter s := ⟨[44].intercalate ([letter] :: s.fields), rfl⟩
  have hparts : (benchLine letter s).splitOn 44 = ascii "BENCH" :: [letter] :: s.fields := by
    refine List.splitOn_intercalate 44 (fun text htext => ?_) (List.cons_ne_nil _ _)
    rw [List.mem_cons, List.mem_cons] at htext
    rcases htext with rfl | rfl | htext
    · decide
    · exact fun h => hcomma (List.mem_singleton.1 h).symm
    · obtain ⟨value, rfl⟩ := mem_fields htext
      exact not_mem_decimal (by decide) value
  have hstrip : ([letter] :: s.fields).map strip = [letter] :: s.fields := by
    have hsame : ∀ text ∈ [letter] :: s.fields, strip text = id text := by
      intro text htext
      rcases List.mem_cons.1 htext with rfl | htext
      · exact strip_of_spaceless fun character hmem => by rw [List.mem_singleton.1 hmem, hspace]
      · obtain ⟨value, rfl⟩ := mem_fields htext
        exact strip_decimal value
    rw [List.map_congr_left hsame, List.map_id]
  have htake : ((ascii "BENCH" :: [letter] :: s.fields).drop 1).take 7 = [letter] :: s.fields := rfl
  have hlength : (ascii "BENCH" :: [letter] :: s.fields).length ≥ 8 := Nat.le_refl 8
  rw [readLine, strip_of_spaceless (benchLine_spaceless hspace), mark_of_unmarked (benchLine_unmarked hspace), if_neg htest,
    if_pos hbench, hparts, if_pos hlength, htake, hstrip]

end Capture

/-- The heading is nothing to the script. -/
theorem readFrom_header {r : Record} {name : Text} (h : HarmlessLine (ascii "--- " ++ name ++ ascii " ---")) (rest : Text) :
    readFrom r (consolePuts (ascii "--- ") ++ consolePuts name ++ consolePuts (ascii " ---" ++ [10]) ++ rest) = readFrom r rest := by
  have hname : consolePuts name = name := consolePuts_plain fun character hmem => by
    have hplain := h.plain character (List.mem_append_left _ (List.mem_append_right _ hmem))
    exact ⟨hplain.1, hplain.2.1⟩
  have hfront : consolePuts (ascii "--- ") = ascii "--- " := by decide
  have hback : consolePuts (ascii " ---" ++ [10]) = ascii " ---" ++ [13, 10] := by decide
  have hlast : (ascii "--- " ++ name ++ ascii " ---").getLast? = some 45 := by
    rw [List.getLast?_append]
    rfl
  have hstrip : strip (ascii "--- " ++ name ++ ascii " ---") = ascii "--- " ++ name ++ ascii " ---" :=
    strip_of_ends rfl hlast (by decide)
  have hread : readLine r (ascii "--- " ++ name ++ ascii " ---") = r := by
    have hbench : ¬ ascii "BENCH," <+: ascii "--- " ++ name ++ ascii " ---" := fun h => absurd (List.cons_prefix_cons.1 h).1 (by decide)
    have htest := h.noRecord
    rw [hstrip] at htest
    have hmark : mark r (ascii "--- " ++ name ++ ascii " ---") = r :=
      mark_of_unmarked fun marker hmarker => decide_eq_false (h.unmarked marker hmarker)
    rw [readLine, hstrip, hmark, if_neg htest, if_neg hbench]
  rw [hname, hfront, hback, ← List.append_assoc _ (ascii " ---"), readFrom_line r fun c hc => (h.plain c hc).2, hread]

/-- The script reads one record back from the statistics of a case, and its numbers are the only ones with the ranks 25, 47, 49, 0
and 49 among the samples and with their mean. -/
theorem bench_record_exact {name tail : Text} {letter : BitVec 8} (hname : name = ascii "Case " ++ letter :: tail)
    (hheader : HarmlessLine (ascii "--- " ++ name ++ ascii " ---")) (hcomma : letter ≠ 44) (hspace : isSpace letter = false)
    (samples : Nat → BitVec 64) (freq : BitVec 64) (r : Record) (rest : Text) :
    ∃ s : BenchStats, s.Describes (cells samples benchSamples) ∧
      (∀ s' : BenchStats, s'.Describes (cells samples benchSamples) → s' = s) ∧
      readFrom r (printBenchStats name samples freq ++ rest) =
        readFrom { r with benchmarks := r.benchmarks ++ [[letter] :: s.fields] } rest := by
  have hdescribes := benchStats_describes samples
  refine ⟨benchStats samples, hdescribes, fun s' h' => h'.unique hdescribes, ?_⟩
  have hletter : consolePuts [letter] = [letter] := consolePuts_plain fun character hmem => by
    have hmem' : character ∈ ascii "--- " ++ name ++ ascii " ---" := by
      rw [hname, List.mem_singleton.1 hmem]
      simp
    exact ⟨(hheader.plain _ hmem').1, (hheader.plain _ hmem').2.1⟩
  have hcase : name.take 5 = ascii "Case " := by rw [hname]; rfl
  have hfirst : (name.drop 5).take 1 = [letter] := by rw [hname]; rfl
  have hrecord : ∀ character ∈ benchLine letter (benchStats samples), character ≠ 10 ∧ character ≠ 13 := fun character hmem => by
    have h := benchLine_spaceless hspace character hmem
    constructor <;> rintro rfl <;> revert h <;> decide
  rw [printBenchStats, if_pos hcase, hfirst, printBenchRecord_eq hletter]
  -- the header stays together while the lines behind it are peeled off
  generalize hlines : consolePuts (ascii "--- ") ++ consolePuts name ++ consolePuts (ascii " ---" ++ [10]) = header
  simp only [List.append_assoc]
  rw [← hlines, readFrom_header hheader]
  iterate 6 rw [readFrom_printBenchLine (by decide)]
  rw [← List.append_assoc (benchLine letter _), readFrom_line r hrecord, readLine_benchLine r hcomma hspace]

/-- The samples 0, ..., 49 in another order. -/
def sevens (i : Nat) : BitVec 64 := BitVec.ofNat 64 (7 * i % 50)

theorem bench_record_exact_sevens : (readLog (printBenchStats (ascii "Case A: Direct EL1 Baseline") sevens 62500000)).benchmarks =
    [["A", "25", "47", "49", "24", "0", "49"].map ascii] := by
  have hname : ascii "Case A: Direct EL1 Baseline" = ascii "Case " ++ 65 :: ascii ": Direct EL1 Baseline" := by decide
  obtain ⟨s, -, hunique, hread⟩ :=
    bench_record_exact hname (by decide +kernel) (by decide) (by decide) sevens 62500000 ⟨[], [], false, false, false⟩ []
  have hs : (⟨25, 47, 49, 24, 0, 49⟩ : BenchStats) = s := hunique _ (by decide +kernel)
  rw [readLog, ← List.append_nil (printBenchStats _ _ _), hread, ← hs]
  decide +kernel

/-! ## The benchmarks on the host -/

def benchmarkCompareU64 (left right : BitVec 64) : Int := if left > right then 1 else if left < right then -1 else 0

def benchmarkPercentile (sorted : Nat → BitVec 64) (count percentile : BitVec 64) : BitVec 64 :=
  let index := (count * percentile + 99) / 100
  sorted (if index = 0 then 0 else index - 1).toNat

theorem compareU64_le {left right : BitVec 64} : benchmarkCompareU64 left right ≤ 0 ↔ left ≤ right := by
  rw [benchmarkCompareU64]
  split
  · next hgt => exact iff_of_false (by decide) (Std.not_le.2 hgt)
  · next hle =>
    refine iff_of_true ?_ (Std.not_lt.1 hle)
    split <;> decide

/-- `index - 1` in the percentile, the product of count and percentile rounded up to hundreds. -/
theorem percentile_index {count percentile : BitVec 64} (hcount : 0 < count.toNat) (hpos : 0 < percentile.toNat)
    (hfits : count.toNat * percentile.toNat + 99 < 2 ^ 64) :
    (if (count * percentile + 99) / 100 = 0 then 0 else (count * percentile + 99) / 100 - 1).toNat =
      (count.toNat * percentile.toNat + 99) / 100 - 1 := by
  have hproduct : 0 < count.toNat * percentile.toNat := Nat.mul_pos hcount hpos
  have hindex : ((count * percentile + 99) / 100).toNat = (count.toNat * percentile.toNat + 99) / 100 := by
    have hadd : (99 : BitVec 64).toNat = 99 := rfl
    have hhundred : (100 : BitVec 64).toNat = 100 := rfl
    have hsmall : count.toNat * percentile.toNat < 2 ^ 64 := by omega
    rw [BitVec.toNat_udiv, BitVec.toNat_add, BitVec.toNat_mul, hadd, hhundred, Nat.mod_eq_of_lt hsmall, Nat.mod_eq_of_lt hfits]
  have hone : (1 : BitVec 64).toNat = 1 := rfl
  have hne : (count * percentile + 99) / 100 ≠ 0 := by
    intro hzero
    rw [hzero] at hindex
    have hnat : (0 : BitVec 64).toNat = 0 := rfl
    omega
  rw [if_neg hne, BitVec.toNat_sub_of_le (by rw [BitVec.le_def, hindex, hone]; omega), hindex, hone]

/-- What `qsort` leaves has the nearest-rank percentile at that index: at least so many percent of the samples are at most as large,
and fewer are smaller. -/
theorem percentile_nearest_rank {sorted : Nat → BitVec 64} {samples : List (BitVec 64)} {count percentile : BitVec 64}
    (hsorted : (cells sorted count.toNat).Pairwise fun left right => benchmarkCompareU64 left right ≤ 0)
    (hperm : (cells sorted count.toNat).Perm samples) (hcount : 0 < count.toNat) (hpos : 0 < percentile.toNat)
    (hle : percentile.toNat ≤ 100) (hfits : count.toNat * percentile.toNat + 99 < 2 ^ 64) :
    benchmarkPercentile sorted count percentile ∈ samples ∧
      percentile.toNat * count.toNat ≤ 100 * samples.countP (· ≤ benchmarkPercentile sorted count percentile) ∧
      100 * samples.countP (· < benchmarkPercentile sorted count percentile) < percentile.toNat * count.toNat := by
  have horder : (cells sorted count.toNat).Pairwise (· ≤ ·) := hsorted.imp fun h => compareU64_le.1 h
  have hproduct : 0 < count.toNat * percentile.toNat := Nat.mul_pos hcount hpos
  have hshare : count.toNat * percentile.toNat ≤ count.toNat * 100 := Nat.mul_le_mul_left _ hle
  have hcell : benchmarkPercentile sorted count percentile = sorted ((count.toNat * percentile.toNat + 99) / 100 - 1) :=
    congrArg sorted (percentile_index hcount hpos hfits)
  have hindex : (count.toNat * percentile.toNat + 99) / 100 - 1 < count.toNat := by omega
  obtain ⟨hmem, hatMost, hless⟩ := (hasRank_of_sorted horder hindex).perm hperm
  rw [hcell, Nat.mul_comm percentile.toNat]
  exact ⟨hmem, by omega, by omega⟩

/-- The 95th percentile of 0, ..., 49. -/
theorem percentile_nearest_rank_fifty : benchmarkPercentile (BitVec.ofNat 64) 50 95 = 47 ∧
    95 * 50 ≤ 100 * (cells (BitVec.ofNat 64) 50).countP (· ≤ benchmarkPercentile (BitVec.ofNat 64) 50 95) ∧
    100 * (cells (BitVec.ofNat 64) 50).countP (· < benchmarkPercentile (BitVec.ofNat 64) 50 95) < 95 * 50 :=
  have hsorted : (cells (BitVec.ofNat 64) (50 : BitVec 64).toNat).Pairwise fun left right => benchmarkCompareU64 left right ≤ 0 := by
    decide +kernel
  have hpos : 0 < (95 : BitVec 64).toNat := by decide
  have h := percentile_nearest_rank hsorted (List.Perm.refl _) (by decide) hpos (by decide) (by decide)
  ⟨by decide +kernel, h.2⟩

end Lettuce
