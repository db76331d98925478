import TinyMuduo.LogFile

/-!
What a rolling log file keeps over a whole run, with a clock that may stand still
or go back. The files together hold the lines, each line in one file; a file is
opened once, under a name of its own; and a file that has grown past `rollSize_`
takes lines only in the second in which it was opened.
-/
namespace TinyMuduo.LogFile

open Checked Runs Logging LogStream

section Names

/-- The fields of `timeText` behind the year have two digits each. -/
theorem timeText_fields {now : ℤ} (h : 0 ≤ now) :
    0 ≤ (gmtime now).tm_year + 1900 ∧
      (0 ≤ (gmtime now).tm_mon + 1 ∧ (gmtime now).tm_mon + 1 < 100) ∧
      (0 ≤ (gmtime now).tm_mday ∧ (gmtime now).tm_mday < 100) ∧
      (0 ≤ (gmtime now).tm_hour ∧ (gmtime now).tm_hour < 100) ∧
      (0 ≤ (gmtime now).tm_min ∧ (gmtime now).tm_min < 100) ∧
      0 ≤ (gmtime now).tm_sec ∧ (gmtime now).tm_sec < 100 := by
  have hepoch : Calendar.dayNumber ⟨1970, 1, 1⟩ = 0 := by decide
  have hyear : 1970 ≤ (Calendar.civil (now / 86400)).year :=
    Calendar.civil_year_ge (by rw [hepoch]; omega)
  obtain ⟨hm0, hm1⟩ := Calendar.civil_month (now / 86400)
  obtain ⟨hd0, hd1⟩ := Calendar.civil_day (now / 86400)
  unfold gmtime
  dsimp only
  omega

/-- Two texts with a two-digit number at the end. -/
theorem append_zeroPadded_inj {a b : List UInt8} {v w : ℤ} (hv : 0 ≤ v ∧ v < 100)
    (hw : 0 ≤ w ∧ w < 100) (h : a ++ zeroPadded 2 v = b ++ zeroPadded 2 w) : a = b ∧ v = w := by
  have hlength : (zeroPadded 2 v).length = (zeroPadded 2 w).length := by
    rw [length_zeroPadded (by decide) hv.1 (by omega),
      length_zeroPadded (by decide) hw.1 (by omega)]
  obtain ⟨hab, hvw⟩ := List.append_inj' h hlength
  exact ⟨hab, zeroPadded_inj hv.1 hw.1 hvw⟩

theorem timeText_inj {now now' : ℤ} (h0 : 0 ≤ now) (h0' : 0 ≤ now')
    (h : timeText now = timeText now') : now = now' := by
  obtain ⟨hyear, hmon, hday, hhour, hmin, hsec⟩ := timeText_fields h0
  obtain ⟨hyear', hmon', hday', hhour', hmin', hsec'⟩ := timeText_fields h0'
  unfold timeText at h
  simp only [← List.append_assoc] at h
  obtain ⟨h, es⟩ := append_zeroPadded_inj hsec hsec' h
  obtain ⟨h, em⟩ := append_zeroPadded_inj hmin hmin' h
  obtain ⟨h, eh⟩ := append_zeroPadded_inj hhour hhour' h
  obtain ⟨h, ed⟩ := append_zeroPadded_inj hday hday' (List.append_inj_left' h rfl)
  obtain ⟨h, eo⟩ := append_zeroPadded_inj hmon hmon' h
  have ey := decimal_inj hyear hyear' (List.append_cancel_left h)
  have hsame : timegm (gmtime now) = timegm (gmtime now') := by
    unfold timegm
    rw [es, em, eh, ed, show (gmtime now).tm_mon = (gmtime now').tm_mon by omega,
      show (gmtime now).tm_year = (gmtime now').tm_year by omega]
  rwa [timegm_gmtime, timegm_gmtime] at hsame

/-- Files opened in different seconds have different names. -/
theorem getLogFileName_inj (cfg : Config) {now now' : ℤ} (h0 : 0 ≤ now) (h0' : 0 ≤ now')
    (h : getLogFileName cfg now = getLogFileName cfg now') : now = now' := by
  unfold getLogFileName at h
  have hrest := List.append_cancel_left h
  exact timeText_inj h0 h0' (List.append_cancel_right hrest)

end Names

section Steps

variable {cfg : Config} {f f' : LogFile} {file : File} {line : LogLine} {calls : Calls}

/-- The file goes on. The clock was not read, or it was read and the file need
not or cannot be left. -/
structure Keeps (cfg : Config) (f : LogFile) (file : File) (line : LogLine) (calls : Calls)
    (f' : LogFile) : Prop where
  file_ : ∃ n, f'.file_ = some { file with flushed := n }
  closed : f'.closed = f.closed
  lastRoll_ : f'.lastRoll_ = f.lastRoll_
  startOfPeriod_ : f'.startOfPeriod_ = f.startOfPeriod_
  size : file.writtenBytes_ ≤ cfg.rollSize_ ∨ line.rollTime ≤ f.lastRoll_
  count : f'.count_ = f.count_ + 1 ∧ f.count_ ≤ 1024 ∨
    f'.count_ ≤ f.count_ ∧ (line.rollTime ≤ f.lastRoll_ ∨
      periodOf calls.checkTime = f.startOfPeriod_)

structure Rolls (cfg : Config) (f : LogFile) (file : File) (line : LogLine) (f' : LogFile) :
    Prop where
  later : f.lastRoll_ < line.rollTime
  file_ : f'.file_ = some ⟨getLogFileName cfg line.rollTime, [], 0, 0, line.rollTime, []⟩
  closed : f'.closed = f.closed ++ [file.flush]
  lastRoll_ : f'.lastRoll_ = line.rollTime
  startOfPeriod_ : f'.startOfPeriod_ = periodOf line.rollTime
  count : f'.count_ ≤ f.count_

theorem rollFile_cases {now : ℤ} {opens : Bool} (h : rollFile cfg f now opens = .ok f') :
    now ≤ f.lastRoll_ ∧ f' = f ∨
      f.lastRoll_ < now ∧ f' = { f with
        lastRoll_ := now
        lastFlush_ := now
        startOfPeriod_ := periodOf now
        file_ := some ⟨getLogFileName cfg now, [], 0, 0, now, []⟩
        closed := f.closed ++ (f.file_.map File.flush).toList } := by
  unfold rollFile at h
  split at h
  · rename_i hlt
    simp only [bind_eq_ok, require_eq_ok, pure_eq_ok, Except.ok.injEq] at h
    obtain ⟨-, -, rfl⟩ := h
    exact Or.inr ⟨hlt, rfl⟩
  · rename_i hle
    cases h
    exact Or.inl ⟨Int.not_lt.mp hle, rfl⟩

/-- `rollFile` with a count that may have been reset. -/
theorem rollFile_keeps_or_rolls (n : ℕ) (hn : n ≤ f.count_)
    (h : rollFile cfg { f with count_ := n, file_ := some file } line.rollTime calls.opens =
      .ok f') :
    Keeps cfg f file line calls f' ∨ Rolls cfg f file line f' := by
  rcases rollFile_cases h with ⟨hle, rfl⟩ | ⟨hlt, rfl⟩
  · exact Or.inl ⟨⟨_, rfl⟩, rfl, rfl, rfl, Or.inr hle, Or.inr ⟨hn, Or.inl hle⟩⟩
  · exact Or.inr ⟨hlt, rfl, rfl, rfl, rfl, hn⟩

/-- What an append does. -/
theorem append_cases (h : append cfg f line calls = .ok f') :
    ∃ file, f.file_ = some file ∧
      (Keeps cfg f (file.append line calls.writes) line calls f' ∨
        Rolls cfg f (file.append line calls.writes) line f') := by
  simp only [append, bind_eq_ok, demand_eq_ok] at h
  obtain ⟨file, hfile, h⟩ := h
  refine ⟨file, hfile, ?_⟩
  generalize file.append line calls.writes = file' at h
  unfold checkRoll at h
  split at h
  · exact rollFile_keeps_or_rolls f.count_ le_rfl h
  · rename_i hsize
    rw [Nat.not_lt] at hsize
    split at h
    · split at h
      · exact rollFile_keeps_or_rolls 0 (Nat.zero_le _) h
      · rename_i hperiod
        rw [not_not] at hperiod
        split at h
        · cases h
          exact Or.inl ⟨⟨_, rfl⟩, rfl, rfl, rfl, Or.inl hsize,
            Or.inr ⟨Nat.zero_le _, Or.inr hperiod⟩⟩
        · cases h
          exact Or.inl ⟨⟨_, rfl⟩, rfl, rfl, rfl, Or.inl hsize,
            Or.inr ⟨Nat.zero_le _, Or.inr hperiod⟩⟩
    · rename_i hcount
      cases h
      exact Or.inl ⟨⟨_, rfl⟩, rfl, rfl, rfl, Or.inl hsize,
        Or.inl ⟨rfl, Nat.not_lt.mp hcount⟩⟩

/-- Short writes are continued. -/
theorem writeLoop_eq {len n : ℕ} {writes : List ℕ} (hn : n ≤ len) (h : ∀ x ∈ writes, 0 < x) :
    File.writeLoop len n writes = len := by
  induction writes generalizing n with
  | nil =>
    unfold File.writeLoop
    split
    · omega
    · rfl
  | cons x later ih =>
    unfold File.writeLoop
    split
    · omega
    · have hx := h x List.mem_cons_self
      dsimp only
      rw [if_neg (by omega)]
      exact ih (by omega) fun y hy => h y (List.mem_cons_of_mem x hy)

theorem written_eq {len : ℕ} {writes : List ℕ} (h : ∀ x ∈ writes, 0 < x) :
    File.written len writes = len := by
  cases writes with
  | nil => rfl
  | cons x later =>
    exact writeLoop_eq (Nat.min_le_right x len) fun y hy => h y (List.mem_cons_of_mem x hy)

end Steps

structure Log where
  log : LogFile
  appended : List LogLine

inductive Input
  | append (line : LogLine) (calls : Calls)
  | flush

def exec (cfg : Config) (s : Log) : Input → Except Fault Log
  | .append line calls => do
      let f ← append cfg s.log line calls
      return ⟨f, s.appended ++ [line]⟩
  | .flush => do
      let f ← flush s.log
      return ⟨f, s.appended⟩

/-- The clock and the calls of the system are not restricted. -/
def system (cfg : Config) : System Log Input Fault where
  start := fun s => ∃ now opens, construct cfg now opens = .ok s.log ∧ s.appended = []
  allowed := fun _ _ => True
  exec := exec cfg

instance (cfg : Config) (s : Log) (i : Input) : Decidable ((system cfg).allowed s i) :=
  isTrue trivial

/-- No call of fwrite(3) fails, though it may take less than it is given. -/
def Healthy (_ : Log) : Input → Prop
  | .append _ calls => ∀ x ∈ calls.writes, 0 < x
  | .flush => True

instance (s : Log) : (i : Input) → Decidable (Healthy s i)
  | .append _ calls => inferInstanceAs (Decidable (∀ x ∈ calls.writes, 0 < x))
  | .flush => isTrue trivial

def bytesOf (lines : List LogLine) : ℕ := (lines.map fun line => line.text.length).sum

/-- The file was left after each of these lines, if it had grown past
`rollSize_` and the clock had moved on. -/
def Passed (cfg : Config) (opened : ℤ) (lines : List LogLine) : Prop :=
  ∀ before line after, lines = before ++ line :: after →
    bytesOf (before ++ [line]) ≤ cfg.rollSize_ ∨ line.rollTime ≤ opened

theorem Passed.snoc {cfg : Config} {opened : ℤ} {lines : List LogLine} {line : LogLine}
    (h : Passed cfg opened lines)
    (hlast : bytesOf (lines ++ [line]) ≤ cfg.rollSize_ ∨ line.rollTime ≤ opened) :
    Passed cfg opened (lines ++ [line]) := by
  intro before line' after hsplit
  rcases List.eq_nil_or_concat after with rfl | ⟨init, last, rfl⟩
  · obtain ⟨rfl, hline⟩ := List.append_inj' hsplit rfl
    cases hline
    exact hlast
  · rw [List.concat_eq_append, ← List.cons_append, ← List.append_assoc] at hsplit
    obtain ⟨rfl, -⟩ := List.append_inj' hsplit rfl
    exact h before line' init rfl

structure FileOk (cfg : Config) (file : File) : Prop where
  filename : file.filename = getLogFileName cfg file.opened
  opened : 0 < file.opened
  writtenBytes_ : file.writtenBytes_ = bytesOf file.lines

structure Inv (cfg : Config) (f : LogFile) : Prop where
  files : ∀ file ∈ f.files, FileOk cfg file
  closed : ∀ file ∈ f.closed, file.opened < f.lastRoll_ ∧
    Passed cfg file.opened file.lines.dropLast
  current : ∀ file, f.file_ = some file → file.opened = f.lastRoll_ ∧
    Passed cfg file.opened file.lines
  order : f.closed.Pairwise fun a b => a.opened < b.opened
  lastRoll_ : 0 ≤ f.lastRoll_
  period : f.startOfPeriod_ = periodOf f.lastRoll_
  count : f.count_ ≤ 1025

section Invariant

variable {cfg : Config} {f f' : LogFile} {file : File} {line : LogLine} {calls : Calls}

theorem mem_files : file ∈ f.files ↔ file ∈ f.closed ∨ f.file_ = some file := by
  simp [files]

theorem FileOk.append {writes : List ℕ} (h : FileOk cfg file) :
    FileOk cfg (file.append line writes) where
  filename := h.filename
  opened := h.opened
  writtenBytes_ := by
    simp only [File.append, bytesOf, List.map_append, List.sum_append, h.writtenBytes_]
    simp

theorem FileOk.flush (n : ℕ) (h : FileOk cfg file) : FileOk cfg { file with flushed := n } :=
  ⟨h.filename, h.opened, h.writtenBytes_⟩

theorem Keeps.inv {writes : List ℕ} (hinv : Inv cfg f) (hfile : f.file_ = some file)
    (h : Keeps cfg f (file.append line writes) line calls f') : Inv cfg f' := by
  have hok := hinv.files file (mem_files.mpr (Or.inr hfile))
  obtain ⟨hopened, hpassed⟩ := hinv.current file hfile
  obtain ⟨n, hfile'⟩ := h.file_
  refine ⟨?_, ?_, ?_, ?_, ?_, ?_, ?_⟩
  · intro g hg
    rcases mem_files.mp hg with hg | hg
    · exact hinv.files g (mem_files.mpr (Or.inl (h.closed ▸ hg)))
    · obtain rfl := Option.some.inj (hfile'.symm.trans hg)
      exact (hok.append).flush n
  · rw [h.closed, h.lastRoll_]
    exact hinv.closed
  · intro g hg
    obtain rfl := Option.some.inj (hfile'.symm.trans hg)
    refine ⟨hopened.trans h.lastRoll_.symm, hpassed.snoc ?_⟩
    have hbytes : (file.append line writes).writtenBytes_ = bytesOf (file.lines ++ [line]) :=
      hok.append.writtenBytes_
    rw [← hbytes, hopened]
    exact h.size
  · rw [h.closed]
    exact hinv.order
  · rw [h.lastRoll_]
    exact hinv.lastRoll_
  · rw [h.startOfPeriod_, h.lastRoll_]
    exact hinv.period
  · have hcount := hinv.count
    rcases h.count with ⟨heq, hle⟩ | ⟨hle, -⟩ <;> omega

theorem Rolls.inv {writes : List ℕ} (hinv : Inv cfg f) (hfile : f.file_ = some file)
    (h : Rolls cfg f (file.append line writes) line f') : Inv cfg f' := by
  have hok := hinv.files file (mem_files.mpr (Or.inr hfile))
  obtain ⟨hopened, hpassed⟩ := hinv.current file hfile
  have hlater := h.later
  have hnonneg := hinv.lastRoll_
  have hlast : (file.append line writes).flush.opened = f.lastRoll_ := hopened
  refine ⟨?_, ?_, ?_, ?_, ?_, ?_, ?_⟩
  · intro g hg
    rcases mem_files.mp hg with hg | hg
    · rw [h.closed] at hg
      rcases List.mem_append.mp hg with hg | hg
      · exact hinv.files g (mem_files.mpr (Or.inl hg))
      · obtain rfl := List.mem_singleton.mp hg
        exact (hok.append).flush _
    · obtain rfl := Option.some.inj (h.file_.symm.trans hg)
      exact ⟨rfl, by dsimp only; omega, rfl⟩
  · intro g hg
    rw [h.lastRoll_]
    rw [h.closed] at hg
    rcases List.mem_append.mp hg with hg | hg
    · obtain ⟨hlt, hg⟩ := hinv.closed g hg
      exact ⟨hlt.trans hlater, hg⟩
    · obtain rfl := List.mem_singleton.mp hg
      refine ⟨hlast ▸ hlater, ?_⟩
      have hlines : (file.append line writes).flush.lines.dropLast = file.lines :=
        List.dropLast_concat
      rw [hlines]
      exact hpassed
  · intro g hg
    obtain rfl := Option.some.inj (h.file_.symm.trans hg)
    exact ⟨h.lastRoll_.symm, by simp [Passed]⟩
  · rw [h.closed, List.pairwise_append]
    refine ⟨hinv.order, List.pairwise_singleton _ _, ?_⟩
    intro a ha b hb
    obtain rfl := List.mem_singleton.mp hb
    exact hlast ▸ (hinv.closed a ha).1
  · rw [h.lastRoll_]
    omega
  · rw [h.startOfPeriod_, h.lastRoll_]
  · exact h.count.trans hinv.count

theorem construct_cases {now : ℤ} {opens : Bool} (h : construct cfg now opens = .ok f) :
    f = ⟨0, 0, 0, 0, none, []⟩ ∨
      0 < now ∧ f = ⟨0, periodOf now, now, now,
        some ⟨getLogFileName cfg now, [], 0, 0, now, []⟩, []⟩ := by
  rcases rollFile_cases h with ⟨-, rfl⟩ | ⟨hlt, rfl⟩
  · exact Or.inl rfl
  · exact Or.inr ⟨hlt, rfl⟩

theorem construct_inv {now : ℤ} {opens : Bool} (h : construct cfg now opens = .ok f) :
    Inv cfg f := by
  rcases construct_cases h with rfl | ⟨hpos, rfl⟩
  · exact ⟨by simp [files], by simp, by simp, List.Pairwise.nil, le_rfl, rfl, by decide⟩
  · refine ⟨?_, by simp, ?_, List.Pairwise.nil, hpos.le, rfl, Nat.zero_le _⟩
    · intro file hfile
      obtain rfl : file = _ := by simpa [files] using hfile
      exact ⟨rfl, hpos, rfl⟩
    · intro file hfile
      cases hfile
      exact ⟨rfl, by simp [Passed]⟩

theorem flush_inv (hinv : Inv cfg f) (h : flush f = .ok f') : Inv cfg f' := by
  simp only [flush, bind_eq_ok, demand_eq_ok, pure_eq_ok, Except.ok.injEq] at h
  obtain ⟨file, hfile, rfl⟩ := h
  refine ⟨?_, hinv.closed, ?_, hinv.order, hinv.lastRoll_, hinv.period, hinv.count⟩
  · intro g hg
    rcases mem_files.mp hg with hg | hg
    · exact hinv.files g (mem_files.mpr (Or.inl hg))
    · cases hg
      exact (hinv.files file (mem_files.mpr (Or.inr hfile))).flush _
  · intro g hg
    cases hg
    exact hinv.current file hfile

theorem append_inv (hinv : Inv cfg f) (h : append cfg f line calls = .ok f') : Inv cfg f' := by
  obtain ⟨file, hfile, hkeeps | hrolls⟩ := append_cases h
  · exact hkeeps.inv hinv hfile
  · exact hrolls.inv hinv hfile

theorem reach_inv {cond : Log → Input → Prop} {s : Log} (h : Reach (system cfg) cond s) :
    Inv cfg s.log := by
  refine h.invariant (I := fun s => Inv cfg s.log) ?_ ?_
  · rintro s ⟨now, opens, hconstruct, -⟩
    exact construct_inv hconstruct
  · intro s i s' hs _ _ hexec
    cases i with
    | append line calls =>
      obtain ⟨f', hf', rfl⟩ := bind_pure_eq_ok.mp hexec
      exact append_inv hs hf'
    | flush =>
      obtain ⟨f', hf', rfl⟩ := bind_pure_eq_ok.mp hexec
      exact flush_inv hs hf'

end Invariant

section Contents

variable {cfg : Config} {f f' : LogFile} {file : File} {line : LogLine} {calls : Calls}

def Whole (file : File) : Prop := file.text = (file.lines.map LogLine.text).flatten

structure Holds (f : LogFile) (appended : List LogLine) : Prop where
  whole : ∀ file ∈ f.files, Whole file
  lines : f.files.flatMap File.lines = appended

theorem Whole.append {writes : List ℕ} (h : Whole file) (hwrites : ∀ x ∈ writes, 0 < x) :
    Whole (file.append line writes) := by
  unfold Whole at h ⊢
  simp [File.append, written_eq hwrites, h]

theorem Keeps.holds {appended : List LogLine} (hold : Holds f appended)
    (hfile : f.file_ = some file) (hwrites : ∀ x ∈ calls.writes, 0 < x)
    (h : Keeps cfg f (file.append line calls.writes) line calls f') :
    Holds f' (appended ++ [line]) := by
  obtain ⟨n, hfile'⟩ := h.file_
  have hwhole : Whole (file.append line calls.writes) :=
    (hold.whole file (mem_files.mpr (Or.inr hfile))).append hwrites
  refine ⟨?_, ?_⟩
  · intro g hg
    rcases mem_files.mp hg with hg | hg
    · exact hold.whole g (mem_files.mpr (Or.inl (h.closed ▸ hg)))
    · obtain rfl := Option.some.inj (hfile'.symm.trans hg)
      exact hwhole
  · rw [← hold.lines]
    simp [files, h.closed, hfile', hfile, File.append]

theorem Rolls.holds {appended : List LogLine} {writes : List ℕ} (hold : Holds f appended)
    (hfile : f.file_ = some file) (hwrites : ∀ x ∈ writes, 0 < x)
    (h : Rolls cfg f (file.append line writes) line f') : Holds f' (appended ++ [line]) := by
  have hwhole : Whole (file.append line writes) :=
    (hold.whole file (mem_files.mpr (Or.inr hfile))).append hwrites
  refine ⟨?_, ?_⟩
  · intro g hg
    rcases mem_files.mp hg with hg | hg
    · rw [h.closed] at hg
      rcases List.mem_append.mp hg with hg | hg
      · exact hold.whole g (mem_files.mpr (Or.inl hg))
      · obtain rfl := List.mem_singleton.mp hg
        exact hwhole
    · obtain rfl := Option.some.inj (h.file_.symm.trans hg)
      rfl
  · rw [← hold.lines]
    simp [files, h.closed, h.file_, hfile, File.append, File.flush]

theorem append_holds {appended : List LogLine} (hold : Holds f appended)
    (hwrites : ∀ x ∈ calls.writes, 0 < x) (h : append cfg f line calls = .ok f') :
    Holds f' (appended ++ [line]) := by
  obtain ⟨file, hfile, hkeeps | hrolls⟩ := append_cases h
  · exact hkeeps.holds hold hfile hwrites
  · exact hrolls.holds hold hfile hwrites

theorem construct_holds {now : ℤ} {opens : Bool} (h : construct cfg now opens = .ok f) :
    Holds f [] := by
  rcases construct_cases h with rfl | ⟨-, rfl⟩
  · exact ⟨by simp [files], rfl⟩
  · exact ⟨by simp [files, Whole], rfl⟩

theorem flush_holds {appended : List LogLine} (hold : Holds f appended) (h : flush f = .ok f') :
    Holds f' appended := by
  simp only [flush, bind_eq_ok, demand_eq_ok, pure_eq_ok, Except.ok.injEq] at h
  obtain ⟨file, hfile, rfl⟩ := h
  refine ⟨?_, ?_⟩
  · intro g hg
    rcases mem_files.mp hg with hg | hg
    · exact hold.whole g (mem_files.mpr (Or.inl hg))
    · cases hg
      exact hold.whole file (mem_files.mpr (Or.inr hfile))
  · rw [← hold.lines]
    simp [files, hfile, File.flush]

theorem reach_holds {s : Log} (h : Reach (system cfg) Healthy s) : Holds s.log s.appended := by
  refine h.invariant (I := fun s => Holds s.log s.appended) ?_ ?_
  · rintro ⟨f, appended⟩ ⟨now, opens, hconstruct, rfl⟩
    exact construct_holds hconstruct
  · intro s i s' hs _ hhealthy hexec
    cases i with
    | append line calls =>
      obtain ⟨f', hf', rfl⟩ := bind_pure_eq_ok.mp hexec
      exact append_holds hs hhealthy hf'
    | flush =>
      obtain ⟨f', hf', rfl⟩ := bind_pure_eq_ok.mp hexec
      exact flush_holds hs hf'

def fileText (output : LogFile) : List UInt8 := (output.files.map File.text).flatten

theorem fileText_of_holds {output : LogFile} {lines : List LogLine} (h : Holds output lines) :
    fileText output = (lines.map LogLine.text).flatten := by
  have htexts : output.files.map File.text =
      output.files.map fun file => (file.lines.map LogLine.text).flatten :=
    List.map_congr_left h.whole
  rw [fileText, htexts, ← h.lines, List.map_flatMap, List.flatMap_def, List.flatten_flatten,
    List.map_map]
  rfl

end Contents

/-- Files are opened one after the other. -/
theorem Inv.opened_lt {cfg : Config} {f : LogFile} (h : Inv cfg f) :
    f.files.Pairwise fun a b => a.opened < b.opened := by
  unfold LogFile.files
  rw [List.pairwise_append]
  refine ⟨h.order, ?_, ?_⟩
  · cases f.file_ with
    | none => exact List.Pairwise.nil
    | some file => exact List.pairwise_singleton _ _
  · intro a ha b hb
    rw [(h.current b (Option.mem_toList.mp hb)).1]
    exact (h.closed a ha).1

theorem Inv.names {cfg : Config} {f : LogFile} (h : Inv cfg f) :
    (f.files.map File.filename).Nodup := by
  rw [List.Nodup, List.pairwise_map]
  refine h.opened_lt.imp_of_mem ?_
  intro a b ha hb hlt hname
  have hoka := h.files a ha
  have hokb := h.files b hb
  rw [hoka.filename, hokb.filename] at hname
  have hsame := getLogFileName_inj cfg hoka.opened.le hokb.opened.le hname
  omega

/-- In every run in which no write fails, whatever the clock does: the files, in
the order in which they were opened, hold the appended lines in their order, each
line whole in one file; no two files have the same name; and a line is appended
to a file that has already grown past `rollSize_` only if, at the line before, the
clock had not passed the second in which the file was opened. -/
theorem logFile_law {cfg : Config} {s : Log} (h : Reach (system cfg) Healthy s) :
    (∀ file ∈ s.log.files, file.text = (file.lines.map LogLine.text).flatten) ∧
      s.log.files.flatMap File.lines = s.appended ∧
      (s.log.files.map File.filename).Nodup ∧
      ∀ file ∈ s.log.files, ∀ before line next after,
        file.lines = before ++ line :: next :: after →
        bytesOf (before ++ [line]) ≤ cfg.rollSize_ ∨ line.rollTime ≤ file.opened := by
  have hinv := reach_inv h
  obtain ⟨hwhole, hlines⟩ := reach_holds h
  refine ⟨hwhole, hlines, hinv.names, ?_⟩
  intro file hfile before line next after hsplit
  rcases mem_files.mp hfile with hclosed | hcurrent
  · refine (hinv.closed file hclosed).2 before line ((next :: after).dropLast) ?_
    rw [hsplit, List.dropLast_append_cons, List.dropLast_cons_cons]
  · exact (hinv.current file hcurrent).2 before line (next :: after) hsplit

theorem rollFile_succeeds {cfg : Config} {f : LogFile} (now : ℤ) (hfile : f.file_.isSome) :
    ∃ f', rollFile cfg f now true = .ok f' ∧ f'.file_.isSome := by
  unfold rollFile
  split
  · exact ⟨_, rfl, rfl⟩
  · exact ⟨f, rfl, hfile⟩

/-- A log that has a file can be appended to, unless a new file cannot be
opened. -/
theorem append_succeeds (cfg : Config) {f : LogFile} (line : LogLine) {calls : Calls}
    (hfile : f.file_.isSome) (hopens : calls.opens = true) :
    ∃ f', append cfg f line calls = .ok f' ∧ f'.file_.isSome := by
  obtain ⟨file, hfile⟩ := Option.isSome_iff_exists.mp hfile
  simp only [append, hfile, demand, ok_bind, checkRoll, hopens]
  split
  · exact rollFile_succeeds _ rfl
  · split
    · split
      · exact rollFile_succeeds _ rfl
      · split <;> exact ⟨_, rfl, rfl⟩
    · exact ⟨_, rfl, rfl⟩

/-- Three lines in the second in which the first file is opened, the first of
them longer than `rollSize_` and written in two pieces; the fourth line comes in
the next second, the fifth after the clock has gone back. -/
def burst : List Input :=
  let calls : Calls := ⟨[], 1700000000, true⟩
  [.append ⟨ascii "first line\n", 1700000000⟩ ⟨[3, 2], 1700000000, true⟩,
    .append ⟨ascii "second\n", 1700000000⟩ calls, .flush,
    .append ⟨ascii "third\n", 1700000001⟩ calls, .append ⟨ascii "fourth\n", 1699999999⟩ calls]

def smallFiles : Config := ⟨ascii "test", 8, 3, 4711, by decide⟩

theorem burst_law :
    ∃ s, Reach (system smallFiles) Healthy s ∧ s.log.files.map File.text =
        [ascii "first line\nsecond\nthird\n", ascii "fourth\n"] ∧
      (s.log.files.map File.filename).Nodup := by
  obtain ⟨s, hs, htest⟩ := exists_of_replay (M := system smallFiles)
    (s := ⟨⟨0, periodOf 1700000000, 1700000000, 1700000000,
      some ⟨getLogFileName smallFiles 1700000000, [], 0, 0, 1700000000, []⟩, []⟩, []⟩) Healthy
    ⟨1700000000, true, rfl, rfl⟩ burst
    (fun s => decide (s.log.files.map File.text =
      [ascii "first line\nsecond\nthird\n", ascii "fourth\n"])) (by decide)
  exact ⟨s, hs, of_decide_eq_true htest, (logFile_law hs).2.2.1⟩

section Days

variable {cfg : Config} {f f' : LogFile}

def appendAll (cfg : Config) (f : LogFile) : List (LogLine × Calls) → Except Fault LogFile
  | [] => .ok f
  | (line, calls) :: rest => do
      let f ← append cfg f line calls
      appendAll cfg f rest

theorem append_lastRoll_le {line : LogLine} {calls : Calls}
    (h : append cfg f line calls = .ok f') : f.lastRoll_ ≤ f'.lastRoll_ := by
  obtain ⟨file, -, hkeeps | hrolls⟩ := append_cases h
  · exact hkeeps.lastRoll_.symm.le
  · rw [hrolls.lastRoll_]
    exact hrolls.later.le

theorem appendAll_lastRoll_le {lines : List (LogLine × Calls)}
    (h : appendAll cfg f lines = .ok f') : f.lastRoll_ ≤ f'.lastRoll_ := by
  induction lines generalizing f with
  | nil =>
    cases h
    exact le_rfl
  | cons e rest ih =>
    obtain ⟨g, hg, hrest⟩ := bind_eq_ok.mp h
    exact (append_lastRoll_le hg).trans (ih hrest)

/-- Appends that leave the file although the clock says otherwise are counted. -/
theorem appendAll_count {lines : List (LogLine × Calls)} (hcount : f.count_ ≤ 1025)
    (hclock : ∀ e ∈ lines, f.lastRoll_ < e.1.rollTime ∧
      periodOf e.2.checkTime ≠ f.startOfPeriod_)
    (h : appendAll cfg f lines = .ok f') :
    f.lastRoll_ < f'.lastRoll_ ∨ f.count_ + lines.length ≤ 1025 := by
  induction lines generalizing f with
  | nil => exact Or.inr hcount
  | cons e rest ih =>
    obtain ⟨g, hg, hrest⟩ := bind_eq_ok.mp h
    obtain ⟨hroll, hperiod⟩ := hclock e List.mem_cons_self
    obtain ⟨file, -, hkeeps | hrolls⟩ := append_cases hg
    · rcases hkeeps.count with ⟨hnext, hle⟩ | ⟨-, hearly | hsame⟩
      · have hclock' : ∀ e ∈ rest, g.lastRoll_ < e.1.rollTime ∧
            periodOf e.2.checkTime ≠ g.startOfPeriod_ := by
          rw [hkeeps.lastRoll_, hkeeps.startOfPeriod_]
          exact fun e he => hclock e (List.mem_cons_of_mem _ he)
        rcases ih (by omega) hclock' hrest with hlater | hfew
        · exact Or.inl (hkeeps.lastRoll_ ▸ hlater)
        · rw [List.length_cons]
          exact Or.inr (by omega)
      · omega
      · exact absurd hsame hperiod
    · refine Or.inl (lt_of_lt_of_le ?_ (appendAll_lastRoll_le hrest))
      rw [hrolls.lastRoll_]
      exact hrolls.later

theorem appendAll_succeeds (cfg : Config) {lines : List (LogLine × Calls)} (hfile : f.file_.isSome)
    (hopens : ∀ e ∈ lines, e.2.opens = true) :
    ∃ f', appendAll cfg f lines = .ok f' ∧ f'.file_.isSome := by
  induction lines generalizing f with
  | nil => exact ⟨f, rfl, hfile⟩
  | cons e rest ih =>
    obtain ⟨g, hg, hgfile⟩ := append_succeeds cfg e.1 hfile (hopens e List.mem_cons_self)
    obtain ⟨f', hf', hfile'⟩ := ih hgfile fun e he => hopens e (List.mem_cons_of_mem _ he)
    exact ⟨f', by simp [appendAll, hg, hf'], hfile'⟩

/-- From any state of any run, 1026 appends in a row while the clock shows another
day than that of the current file, and a later second, open a new file. -/
theorem rolls_within_1026_appends {s : Log} (h : Reachable (system cfg) s)
    {lines : List (LogLine × Calls)} (hmany : 1026 ≤ lines.length)
    (hclock : ∀ e ∈ lines, s.log.lastRoll_ < e.1.rollTime ∧
      periodOf e.2.checkTime ≠ periodOf s.log.lastRoll_)
    (happend : appendAll cfg s.log lines = .ok f') : s.log.lastRoll_ < f'.lastRoll_ := by
  have hinv := reach_inv h
  rw [← hinv.period] at hclock
  rcases appendAll_count hinv.count hclock happend with hlater | hfew
  · exact hlater
  · omega

def nextDay : List (LogLine × Calls) :=
  List.replicate 1026 (⟨[], 1700100000⟩, ⟨[], 1700100000, true⟩)

theorem nextDay_rolls :
    ∃ s f', Reachable (system smallFiles) s ∧ appendAll smallFiles s.log nextDay = .ok f' ∧
      s.log.lastRoll_ < f'.lastRoll_ := by
  have hopens : ∀ e ∈ nextDay, e.2.opens = true := by
    intro e he
    rw [List.eq_of_mem_replicate he]
  obtain ⟨f', hf', -⟩ := appendAll_succeeds smallFiles
    (f := ⟨0, periodOf 1700000000, 1700000000, 1700000000,
      some ⟨getLogFileName smallFiles 1700000000, [], 0, 0, 1700000000, []⟩, []⟩) rfl hopens
  refine ⟨⟨_, []⟩, f', .start ⟨1700000000, true, rfl, rfl⟩, hf', ?_⟩
  refine rolls_within_1026_appends (.start ⟨1700000000, true, rfl, rfl⟩) ?_ ?_ hf'
  · rw [nextDay, List.length_replicate]
  · intro e he
    rw [List.eq_of_mem_replicate he]
    decide

end Days

end TinyMuduo.LogFile
