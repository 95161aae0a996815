import Mathlib.Data.List.SplitBy
import Polycube.Dispatcher.Rules

/-!
# The counters of `/proc/net/snmp`

`getValue` takes its values from fixed columns of the lines 1 and 7, and looks up every line in an
array of eleven flags.  The kernel writes a pair of lines for each group, so the place of a counter
and the number of lines depend on the groups that there are.
-/

namespace Polycube.Synflood

open Function
open Polycube.Dispatcher (isSpace)

abbrev Word := List Char
abbrev Line := List Char

/-- What `istream_iterator<std::string>` reads from a line. -/
def words (line : Line) : List Word := (line.splitOnP isSpace).filter (· ≠ [])

inductive Counter
  | inReceives | inDelivers | outRequests | attemptFails | outRsts
  deriving DecidableEq

inductive STATISTICS
  | ipInReceives | ipInDelivers | ipOutRequests | tcpAttemptFails | tcpOutRsts
  | deliverRatio | responseRatio | allSynfloodStats
  deriving DecidableEq

/-- The members of the class that hold the counters. -/
abbrev Stats := Counter → Word

/-- An access out of range: of the array `linesOfInterest`, which is undefined, or of the words of
a line, which throws. -/
inductive Fault
  | linesOfInterest (nLine : ℕ)
  | results (i : ℕ)
  deriving DecidableEq

/-- The line and the index of each flag that the `switch` sets. -/
def flags : STATISTICS → List (ℕ × ℕ)
  | .ipInReceives => [(1, 3)]
  | .ipInDelivers => [(1, 9)]
  | .ipOutRequests => [(1, 10)]
  | .tcpAttemptFails => [(7, 7)]
  | .tcpOutRsts => [(7, 14)]
  | .deliverRatio => [(1, 3), (1, 9)]
  | .responseRatio => [(1, 3), (1, 10)]
  | .allSynfloodStats => [(1, 3), (1, 9), (1, 10), (7, 7), (7, 14)]

def linesOfInterest (type : STATISTICS) (nLine : ℕ) : Bool := (flags type).any (·.1 = nLine)

/-- The counter that a loop sets at an index. -/
def member : ℕ → ℕ → Option Counter
  | 1, 3 => some .inReceives
  | 1, 9 => some .inDelivers
  | 1, 10 => some .outRequests
  | 7, 7 => some .attemptFails
  | 7, 14 => some .outRsts
  | _, _ => none

def readValue (type : STATISTICS) (nLine : ℕ) (results : List Word) (s : Stats) (i : ℕ) :
    Except Fault Stats :=
  if (nLine, i) ∈ flags type ∧ i ≤ results.length then
    match member nLine i with
    | some c =>
      match results[i]? with
      | some value => .ok (update s c value)
      | none => .error (.results i)
    | none => .ok s
  else .ok s

/-- The loop over the flags of the group, 19 for Ip and 15 for Tcp. -/
def readValues (type : STATISTICS) (nLine : ℕ) (results : List Word) (s : Stats) :
    Except Fault Stats :=
  match nLine with
  | 1 => (List.range 19).foldlM (readValue type 1 results) s
  | 7 => (List.range 15).foldlM (readValue type 7 results) s
  | _ => .ok s

def readLines (type : STATISTICS) : ℕ → List Line → Stats → Except Fault Stats
  | _, [], s => .ok s
  | nLine, line :: lines, s =>
    if 11 ≤ nLine then .error (.linesOfInterest nLine)
    else if linesOfInterest type nLine then
      readValues type nLine (words line) s >>= readLines type (nLine + 1) lines
    else readLines type (nLine + 1) lines s

def getValue (type : STATISTICS) (infile : List Line) (s : Stats) : Except Fault Stats :=
  readLines type 0 infile s

/-- The group, without the colon, and the column of a counter. -/
def Counter.name : Counter → String × String
  | .inReceives => ("Ip", "InReceives")
  | .inDelivers => ("Ip", "InDelivers")
  | .outRequests => ("Ip", "OutRequests")
  | .attemptFails => ("Tcp", "AttemptFails")
  | .outRsts => ("Tcp", "OutRsts")

/-- The value under the name of a counter, in the first group of that name. -/
def Counter.named (c : Counter) : List Line → Option Word
  | header :: values :: rest =>
    if (words header).head? = some (c.name.1.toList ++ [':']) then
      ((words header).idxOf? c.name.2.toList).bind ((words values)[·]?)
    else c.named rest
  | _ => none

/-- The lines come in pairs, with the same first word and as many values as names. -/
def paired : List Line → Bool
  | header :: values :: rest =>
    (words header).head? = (words values).head? &&
      (words header).length = (words values).length && paired rest
  | rest => rest.isEmpty

/-- A text in the format that has the counters. -/
structure Snmp where
  infile : List Line
  paired : paired infile = true
  counts : ∀ c : Counter, (c.named infile).isSome

/-- The line and the column from which the code takes a counter. -/
def Counter.place : Counter → ℕ × ℕ
  | .inReceives => (1, 3)
  | .inDelivers => (1, 9)
  | .outRequests => (1, 10)
  | .attemptFails => (7, 7)
  | .outRsts => (7, 14)

def Counter.placed (c : Counter) (infile : List Line) : Option Word :=
  infile[c.place.1]?.bind fun line => (words line)[c.place.2]?

/-- No access is out of range, and each counter that is asked for gets the value under its name. -/
def Right (type : STATISTICS) (infile : List Line) : Prop :=
  ∀ s, ∃ s', getValue type infile s = .ok s' ∧
    ∀ c : Counter, c.place ∈ flags type → c.named infile = some (s' c)

/-! ### What is read -/

theorem place_of_member {n i : ℕ} {c : Counter} (h : member n i = some c) : c.place = (n, i) := by
  unfold member at h
  split at h <;> cases h <;> rfl

theorem member_place (c : Counter) : member c.place.1 c.place.2 = some c := by
  cases c <;> rfl

theorem eq_of_place {c c' : Counter} (h : c.place = c'.place) : c = c' := by
  have := member_place c
  rw [h, member_place] at this
  exact (Option.some.inj this).symm

variable {type : STATISTICS} {n i : ℕ} {results : List Word} {s s' : Stats} {lines : List Line}

/-- The counters after some indices of a line. -/
def Took (type : STATISTICS) (n : ℕ) (results : List Word) (indices : List ℕ) (s s' : Stats) :
    Prop :=
  ∀ c : Counter, s' c =
    if c.place ∈ flags type ∧ c.place.1 = n ∧ c.place.2 ∈ indices then
      results[c.place.2]?.getD (s c)
    else s c

theorem took_readValue (run : readValue type n results s i = .ok s') :
    Took type n results [i] s s' := by
  intro c
  have only (here : c.place ∈ flags type ∧ c.place.1 = n ∧ c.place.2 ∈ [i]) : c.place = (n, i) :=
    Prod.ext here.2.1 (List.mem_singleton.1 here.2.2)
  unfold readValue at run
  split_ifs at run with flag
  · cases counter : member n i with
    | none =>
      simp only [counter, Except.ok.injEq] at run
      rw [if_neg, run]
      intro here
      have := member_place c
      rw [only here, counter] at this
      cases this
    | some c' =>
      cases value : results[i]? with
      | none => simp only [counter, value, reduceCtorEq] at run
      | some v =>
        simp only [counter, value, Except.ok.injEq] at run
        have place := place_of_member counter
        by_cases same : c = c'
        · rw [← run, same, update_self, if_pos, place, value, Option.getD_some]
          exact ⟨place ▸ flag.1, by rw [place], by rw [place]; exact List.mem_singleton.2 rfl⟩
        · rw [← run, update_of_ne same, if_neg]
          exact fun here => same (eq_of_place ((only here).trans place.symm))
  · obtain rfl := Except.ok.inj run
    split_ifs with here
    · have place := only here
      rw [place] at here ⊢
      have short := not_and.1 flag here.1
      rw [List.getElem?_eq_none (by omega), Option.getD_none]
    · rfl

theorem took_foldlM {indices : List ℕ}
    (run : indices.foldlM (readValue type n results) s = .ok s') :
    Took type n results indices s s' := by
  induction indices generalizing s with
  | nil =>
    obtain rfl := Except.ok.inj run
    exact fun c => (if_neg fun here => List.not_mem_nil here.2.2).symm
  | cons i indices ih =>
    rw [List.foldlM_cons] at run
    cases first : readValue type n results s i with
    | error e => rw [first] at run; cases run
    | ok s₁ =>
      rw [first] at run
      intro c
      rw [ih run c, took_readValue first c]
      simp only [List.mem_cons, List.not_mem_nil, or_false]
      cases results[c.place.2]? <;> grind

theorem took_readValues (run : readValues type n results s = .ok s') (c : Counter) :
    s' c = if c.place ∈ flags type ∧ c.place.1 = n then results[c.place.2]?.getD (s c) else s c := by
  unfold readValues at run
  split at run
  · rw [took_foldlM run c]
    cases c <;> simp [Counter.place]
  · rw [took_foldlM run c]
    cases c <;> simp [Counter.place]
  · obtain rfl := Except.ok.inj run
    rw [if_neg]
    rintro ⟨-, rfl⟩
    cases c <;> contradiction

/-- Every counter that is asked for has what stands at its place, if the text has it. -/
theorem took_readLines (run : readLines type n lines s = .ok s') (c : Counter) :
    s' c = if c.place ∈ flags type ∧ n ≤ c.place.1 then
      (lines[c.place.1 - n]?.bind fun line => (words line)[c.place.2]?).getD (s c) else s c := by
  induction lines generalizing n s with
  | nil =>
    obtain rfl := Except.ok.inj run
    simp
  | cons line lines ih =>
    unfold readLines at run
    have step (s₁ : Stats) (first : s₁ c = if c.place ∈ flags type ∧ c.place.1 = n then
        (words line)[c.place.2]?.getD (s c) else s c)
        (run : readLines type (n + 1) lines s₁ = .ok s') : s' c =
          if c.place ∈ flags type ∧ n ≤ c.place.1 then
            ((line :: lines)[c.place.1 - n]?.bind fun line => (words line)[c.place.2]?).getD (s c)
          else s c := by
      rw [ih run, first]
      rcases Nat.lt_trichotomy c.place.1 n with before | here | after
      · rw [if_neg (by omega), if_neg (by omega), if_neg (by omega)]
      · rw [if_neg (by omega), here, Nat.sub_self]
        simp
      · obtain ⟨k, hk⟩ : ∃ k, c.place.1 - n = k + 1 := ⟨c.place.1 - n - 1, by omega⟩
        rw [show c.place.1 - (n + 1) = k by omega, hk, List.getElem?_cons_succ]
        simp only [after.ne', and_false, if_false, show n + 1 ≤ c.place.1 from after, after.le]
    split_ifs at run with beyond interest
    · cases first : readValues type n (words line) s with
      | error e => rw [first] at run; cases run
      | ok s₁ =>
        rw [first] at run
        exact step s₁ (took_readValues first c) run
    · refine step s (if_neg fun here => interest ?_).symm run
      exact List.any_eq_true.2 ⟨c.place, here.1, decide_eq_true here.2⟩

theorem length_of_readLines (run : readLines type n lines s = .ok s') (more : lines ≠ []) :
    n + lines.length ≤ 11 := by
  induction lines generalizing n s with
  | nil => exact absurd rfl more
  | cons line lines ih =>
    unfold readLines at run
    have step {s₁ : Stats} (run : readLines type (n + 1) lines s₁ = .ok s') (h : n < 11) :
        n + (lines.length + 1) ≤ 11 := by
      by_cases last : lines = []
      · rw [last, List.length_nil]
        omega
      · have := ih run last
        omega
    split_ifs at run with beyond
    · cases first : readValues type n (words line) s with
      | error e => rw [first] at run; cases run
      | ok s₁ =>
        rw [first] at run
        exact step run (by omega)
    · exact step run (by omega)

theorem exists_foldlM (long : ∀ c : Counter, c.place ∈ flags type → c.place.1 = n →
    c.place.2 < results.length) (indices : List ℕ) (s : Stats) :
    ∃ s', indices.foldlM (readValue type n results) s = .ok s' := by
  induction indices generalizing s with
  | nil => exact ⟨s, rfl⟩
  | cons i indices ih =>
    have one : ∃ s₁, readValue type n results s i = .ok s₁ := by
      unfold readValue
      split_ifs with flag
      · cases counter : member n i with
        | none => exact ⟨s, rfl⟩
        | some c =>
          have place := place_of_member counter
          have := long c (place ▸ flag.1) (by rw [place])
          rw [place] at this
          exact ⟨update s c results[i], by simp only [List.getElem?_eq_getElem this]⟩
      · exact ⟨s, rfl⟩
    obtain ⟨s₁, one⟩ := one
    rw [List.foldlM_cons, one]
    exact ih s₁

theorem exists_readLines (few : n + lines.length ≤ 11)
    (placed : ∀ c : Counter, c.place ∈ flags type → n ≤ c.place.1 →
      (lines[c.place.1 - n]?.bind fun line => (words line)[c.place.2]?).isSome) (s : Stats) :
    ∃ s', readLines type n lines s = .ok s' := by
  induction lines generalizing n s with
  | nil => exact ⟨s, rfl⟩
  | cons line lines ih =>
    rw [List.length_cons] at few
    have rest := ih (n := n + 1) (by omega) fun c asked after => by
      have := placed c asked (by omega)
      rwa [show c.place.1 - n = (c.place.1 - (n + 1)) + 1 by omega, List.getElem?_cons_succ] at this
    have long (c : Counter) (asked : c.place ∈ flags type) (here : c.place.1 = n) :
        c.place.2 < (words line).length := by
      have := placed c asked here.ge
      rw [here, Nat.sub_self, List.getElem?_cons_zero, Option.bind_some] at this
      simpa using this
    unfold readLines
    rw [if_neg (by omega)]
    split_ifs
    · have first : ∃ s₁, readValues type n (words line) s = .ok s₁ := by
        unfold readValues
        split
        · exact exists_foldlM long _ s
        · exact exists_foldlM long _ s
        · exact ⟨s, rfl⟩
      obtain ⟨s₁, first⟩ := first
      rw [first]
      exact rest s₁
    · exact rest s

/-- The counters that are asked for are right exactly when there are at most eleven lines and each of
them stands where the code takes it. -/
theorem getValue_right_iff (type : STATISTICS) (text : Snmp) :
    Right type text.infile ↔ text.infile.length ≤ 11 ∧
      ∀ c : Counter, c.place ∈ flags type → c.placed text.infile = c.named text.infile := by
  constructor
  · intro right
    -- counters that have none of the values before
    obtain ⟨s', run, named⟩ := right fun c => (c.named text.infile).getD [] ++ ['0']
    have few : text.infile.length ≤ 11 := by
      have := length_of_readLines run
      grind
    refine ⟨few, fun c asked => ?_⟩
    have took := took_readLines run c
    have value := named c asked
    rw [if_pos ⟨asked, Nat.zero_le _⟩, value] at took
    unfold Counter.placed
    rw [Nat.sub_zero, Option.getD_some] at took
    cases placed : text.infile[c.place.1]?.bind fun line => (words line)[c.place.2]? with
    | none =>
      rw [placed, Option.getD_none] at took
      simpa using congrArg List.length took
    | some v =>
      rw [placed, Option.getD_some] at took
      rw [value, took]
  · rintro ⟨few, places⟩ s
    obtain ⟨s', run⟩ : ∃ s', readLines type 0 text.infile s = .ok s' := by
      refine exists_readLines (by omega) (fun c asked _ => ?_) s
      have := text.counts c
      rwa [← places c asked] at this
    refine ⟨s', run, fun c asked => ?_⟩
    have took := took_readLines run c
    rw [if_pos ⟨asked, Nat.zero_le _⟩, Nat.sub_zero] at took
    have placed := places c asked
    obtain ⟨v, value⟩ := Option.isSome_iff_exists.1 (text.counts c)
    unfold Counter.placed at placed
    rw [placed, value, Option.getD_some] at took
    rw [took, value]

/-- What the kernel writes when ICMP messages have come in: twelve lines. -/
def usual : Snmp where
  infile := ["Ip: Forwarding DefaultTTL InReceives InHdrErrors InAddrErrors ForwDatagrams InUnknownProtos InDiscards InDelivers OutRequests", "Ip: 1 64 90 0 0 0 0 0 80 70",
    "Icmp: InMsgs InErrors", "Icmp: 2 0", "IcmpMsg: InType3 OutType3", "IcmpMsg: 2 2",
    "Tcp: RtoAlgorithm RtoMin RtoMax MaxConn ActiveOpens PassiveOpens AttemptFails EstabResets CurrEstab InSegs OutSegs RetransSegs InErrs OutRsts", "Tcp: 1 200 9 -1 5 4 3 0 2 50 40 1 0 6",
    "Udp: InDatagrams NoPorts", "Udp: 20 1", "UdpLite: InDatagrams NoPorts",
    "UdpLite: 0 0"].map String.toList
  paired := by decide +kernel
  counts := by
    intro c
    cases c <;> decide +kernel

/-- The flag of the twelfth line is read beyond the array. -/
theorem not_getValue_right : ¬ ∀ type (text : Snmp), Right type text.infile := by
  intro right
  obtain ⟨s', run, -⟩ := right .allSynfloodStats usual fun _ => []
  have beyond : getValue .allSynfloodStats usual.infile (fun _ => []) =
      .error (.linesOfInterest 11) := by rfl
  rw [beyond] at run
  cases run

end Polycube.Synflood
