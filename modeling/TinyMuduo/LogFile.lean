import TinyMuduo.DecimalText
import TinyMuduo.Lib.Runs

/-!
The log file that rolls over to a new one. A file is left when it has grown past
`rollSize_` or, at every 1025th append or so, when a day has ended; in both cases
only if the clock has moved past the second in which it was opened, since the
second is what tells the names of the files apart.
-/
namespace TinyMuduo

open Checked Runs Logging LogStream

/-- A line of the log, with what time(2) returns to `getLogFileName` if it is
called for it. -/
structure LogLine where
  text : List UInt8
  rollTime : ℤ
  deriving DecidableEq

namespace LogFile

/-- `LogFile::File`, with its history: the second in which it was opened, the
lines appended to it. -/
structure File where
  filename : List UInt8
  /-- what fwrite(3) has taken -/
  text : List UInt8
  writtenBytes_ : ℕ
  /-- how much of the text the last fflush(3) has seen -/
  flushed : ℕ
  opened : ℤ
  lines : List LogLine
  deriving DecidableEq

namespace File

/-- The loop of `append`, from `n` bytes on, and how many bytes fwrite(3) has
taken at its end. The list has the counts that the next calls return; the calls
after them take everything. -/
def writeLoop (len n : ℕ) (writes : List ℕ) : ℕ :=
  if len - n = 0 then n
  else
    match writes with
    | [] => len
    | x :: later => if min x (len - n) = 0 then n else writeLoop len (n + min x (len - n)) later

def written (len : ℕ) (writes : List ℕ) : ℕ :=
  match writes with
  | [] => len
  | x :: later => writeLoop len (min x len) later

/-- A failed write is only reported: `writtenBytes_` counts the whole line. -/
def append (file : File) (line : LogLine) (writes : List ℕ) : File :=
  { file with
    text := file.text ++ line.text.take (written line.text.length writes)
    writtenBytes_ := file.writtenBytes_ + line.text.length
    lines := file.lines ++ [line] }

def flush (file : File) : File := { file with flushed := file.text.length }

end File

/-- The arguments of the constructor, with its assertion, and the process. -/
structure Config where
  basename_ : List UInt8
  rollSize_ : ℕ
  flushInterval_ : ℤ
  pid : ℤ
  noSlash : 47 ∉ basename_

def timeText (now : ℤ) : List UInt8 :=
  let tm := gmtime now
  ascii "." ++ (decimal (tm.tm_year + 1900) ++ (zeroPadded 2 (tm.tm_mon + 1) ++
    (zeroPadded 2 tm.tm_mday ++ (ascii "-" ++ (zeroPadded 2 tm.tm_hour ++
      (zeroPadded 2 tm.tm_min ++ zeroPadded 2 tm.tm_sec))))))

def getLogFileName (cfg : Config) (now : ℤ) : List UInt8 :=
  cfg.basename_ ++ (timeText now ++ (ascii "." ++ decimal cfg.pid ++ ascii ".log"))

def kCheckTimeRoll_ : ℕ := 1024

def kRollPerSeconds_ : ℤ := 60 * 60 * 24

def periodOf (now : ℤ) : ℤ := now.tdiv kRollPerSeconds_ * kRollPerSeconds_

end LogFile

structure LogFile where
  count_ : ℕ
  startOfPeriod_ : ℤ
  lastRoll_ : ℤ
  lastFlush_ : ℤ
  file_ : Option LogFile.File
  /-- the files before, closed by `file_.reset` -/
  closed : List LogFile.File
  deriving DecidableEq

namespace LogFile

structure Calls where
  writes : List ℕ
  /-- time(2) in `append_unlocked` -/
  checkTime : ℤ
  /-- fopen(3) opens the new file -/
  opens : Bool

/-- `new File(filename)` does not check what fopen(3) returns. -/
def rollFile (cfg : Config) (f : LogFile) (now : ℤ) (opens : Bool) : Except Fault LogFile :=
  if f.lastRoll_ < now then do
    require (opens = true) .nullPointer
    return { f with
      lastRoll_ := now
      lastFlush_ := now
      startOfPeriod_ := periodOf now
      file_ := some ⟨getLogFileName cfg now, [], 0, 0, now, []⟩
      closed := f.closed ++ (f.file_.map File.flush).toList }
  else return f

def construct (cfg : Config) (now : ℤ) (opens : Bool) : Except Fault LogFile :=
  rollFile cfg ⟨0, 0, 0, 0, none, []⟩ now opens

def checkRoll (cfg : Config) (f : LogFile) (file : File) (rollTime : ℤ) (calls : Calls) :
    Except Fault LogFile :=
  if cfg.rollSize_ < file.writtenBytes_ then rollFile cfg f rollTime calls.opens
  else if kCheckTimeRoll_ < f.count_ then
    if periodOf calls.checkTime ≠ f.startOfPeriod_ then
      rollFile cfg { f with count_ := 0 } rollTime calls.opens
    else if cfg.flushInterval_ < calls.checkTime - f.lastFlush_ then
      .ok { f with count_ := 0, lastFlush_ := calls.checkTime, file_ := some file.flush }
    else .ok { f with count_ := 0 }
  else .ok { f with count_ := f.count_ + 1 }

def append (cfg : Config) (f : LogFile) (line : LogLine) (calls : Calls) :
    Except Fault LogFile := do
  let file ← demand f.file_ .nullPointer
  let file := file.append line calls.writes
  checkRoll cfg { f with file_ := some file } file line.rollTime calls

def flush (f : LogFile) : Except Fault LogFile := do
  let file ← demand f.file_ .nullPointer
  return { f with file_ := some file.flush }

def files (f : LogFile) : List File := f.closed ++ f.file_.toList

end LogFile

end TinyMuduo
