import TinyMuduo.LogFileRuns

/-!
Asynchronous logging with double buffering. Any thread appends lines to the
current buffer; the logging thread takes the filled buffers away, puts empty ones
in their place and writes them to the log file without holding the mutex. The
append and the exchange hold the mutex, the rest of the logging thread goes one
assertion, test or write at a time. The wait of the logging thread has a time
limit, so it may end at any moment. `SIZE` is `kLargeBuffer` in the source.
-/
namespace TinyMuduo.AsyncLogging

open Checked Runs LogFile

inductive Assertion
  | running
  | newBuffer1
  | newBuffer2
  | buffersToWriteEmpty
  | buffersToWrite
  | refill1
  | refill2
  deriving DecidableEq, Repr

inductive Failure
  | assertion (a : Assertion)
  | nullBuffer
  | memory (fault : Fault)
  | file (fault : Fault)
  deriving DecidableEq, Repr

inductive Pc
  | idle
  | begin
  | test
  | lock
  | waiting
  | swapped
  | write (i : ℕ)
  | refill
  | lastFlush
  | exited
  deriving DecidableEq, Repr

/-- What the logging thread has passed to the log file: the text of a buffer, or
the message in place of the buffers it has dropped. -/
inductive Event
  | wrote (line : LogLine)
  | dropped (line : LogLine) (buffers : List (List UInt8))

structure State (SIZE : ℕ) where
  running_ : Bool
  currentBuffer_ : Option (FixedBuffer SIZE)
  nextBuffer_ : Option (FixedBuffer SIZE)
  buffers_ : List (FixedBuffer SIZE)
  pc : Pc
  newBuffer1 : Option (FixedBuffer SIZE)
  newBuffer2 : Option (FixedBuffer SIZE)
  buffersToWrite : List (FixedBuffer SIZE)
  output : Option LogFile
  /-- the lines of all calls of `append`, in the order of the mutex -/
  appended : List (List UInt8)
  events : List Event

variable {SIZE : ℕ}

def newBuffer (SIZE : ℕ) : FixedBuffer SIZE := ⟨List.replicate SIZE 0, 0, List.length_replicate⟩

def reset (b : FixedBuffer SIZE) : FixedBuffer SIZE := { b with cur := 0 }

def initial (SIZE : ℕ) : State SIZE where
  running_ := false
  currentBuffer_ := some (newBuffer SIZE)
  nextBuffer_ := some (newBuffer SIZE)
  buffers_ := []
  pc := .idle
  newBuffer1 := none
  newBuffer2 := none
  buffersToWrite := []
  output := none
  appended := []
  events := []

def appendLine (b : FixedBuffer SIZE) (logline : List UInt8) :
    Except Failure (FixedBuffer SIZE) :=
  (b.append logline logline.length).mapError .memory

/-- `append`. A line that does not fit into an empty buffer is lost. -/
def append (s : State SIZE) (logline : List UInt8) : Except Failure (State SIZE) := do
  let current ← demand s.currentBuffer_ .nullBuffer
  if (logline.length : ℤ) < current.avail then
    let current ← appendLine current logline
    return { s with currentBuffer_ := some current, appended := s.appended ++ [logline] }
  else
    let next ← appendLine (s.nextBuffer_.getD (newBuffer SIZE)) logline
    return { s with
      buffers_ := s.buffers_ ++ [current]
      currentBuffer_ := some next
      nextBuffer_ := none
      appended := s.appended ++ [logline] }

structure Env where
  rollTime : ℤ
  calls : Calls

def writeOut (cfg : Config) (s : State SIZE) (text : List UInt8) (env : Env) :
    Except Failure LogFile := do
  let output ← demand s.output .nullBuffer
  (LogFile.append cfg output ⟨text, env.rollTime⟩ env.calls).mapError .file

def flushOut (s : State SIZE) : Except Failure LogFile := do
  let output ← demand s.output .nullBuffer
  (LogFile.flush output).mapError .file

def swap (s : State SIZE) : Except Failure (State SIZE) := do
  let current ← demand s.currentBuffer_ .nullBuffer
  return { s with
    pc := .swapped
    buffersToWrite := s.buffers_ ++ [current]
    buffers_ := s.buffersToWrite
    currentBuffer_ := s.newBuffer1
    newBuffer1 := none
    nextBuffer_ := if s.nextBuffer_.isNone then s.newBuffer2 else s.nextBuffer_
    newBuffer2 := if s.nextBuffer_.isNone then none else s.newBuffer2 }

def dropMsg : List UInt8 := ascii "Dropped log messages\n"

/-- Take a written buffer back in place of one that was given away. -/
def refillFrom (newBuffer : Option (FixedBuffer SIZE)) (buffers : List (FixedBuffer SIZE))
    (a : Assertion) : Except Failure (FixedBuffer SIZE × List (FixedBuffer SIZE)) :=
  match newBuffer with
  | some b => .ok (b, buffers)
  | none => do
      let last ← demand buffers.getLast? (.assertion a)
      return (reset last, buffers.dropLast)

def loggerStep (cfg : Config) (s : State SIZE) (env : Env) : Except Failure (State SIZE) :=
  match s.pc with
  | .idle | .exited => .ok s
  | .begin => do
      require (s.running_ = true) (.assertion .running)
      let output ← (LogFile.construct cfg env.rollTime env.calls.opens).mapError .file
      return { s with pc := .test, output := some output, newBuffer1 := some (newBuffer SIZE)
                      newBuffer2 := some (newBuffer SIZE) }
  | .test =>
      if s.running_ then do
        require (∃ b ∈ s.newBuffer1, b.cur = 0) (.assertion .newBuffer1)
        require (∃ b ∈ s.newBuffer2, b.cur = 0) (.assertion .newBuffer2)
        require (s.buffersToWrite.isEmpty = true) (.assertion .buffersToWriteEmpty)
        return { s with pc := .lock }
      else .ok { s with pc := .lastFlush }
  -- the test is the other way round from what the time limit suggests
  | .lock => if s.buffers_.isEmpty then swap s else .ok { s with pc := .waiting }
  | .waiting => swap s
  | .swapped => do
      require (s.buffersToWrite.isEmpty = false) (.assertion .buffersToWrite)
      if 25 < s.buffersToWrite.length then
        let output ← writeOut cfg s dropMsg env
        return { s with
          pc := .write 0
          output := some output
          buffersToWrite := s.buffersToWrite.drop (s.buffersToWrite.length - 2)
          events := s.events ++ [.dropped ⟨dropMsg, env.rollTime⟩
            ((s.buffersToWrite.take (s.buffersToWrite.length - 2)).map FixedBuffer.asString)] }
      else return { s with pc := .write 0 }
  | .write i =>
      match s.buffersToWrite[i]? with
      | some b => do
          let output ← writeOut cfg s b.asString env
          return { s with pc := .write (i + 1), output := some output
                          events := s.events ++ [.wrote ⟨b.asString, env.rollTime⟩] }
      | none => .ok { s with pc := .refill }
  | .refill => do
      let written := s.buffersToWrite.take 2
      let (newBuffer1, written) ← refillFrom s.newBuffer1 written .refill1
      let (newBuffer2, _) ← refillFrom s.newBuffer2 written .refill2
      let output ← flushOut s
      return { s with pc := .test, output := some output, newBuffer1 := some newBuffer1
                      newBuffer2 := some newBuffer2, buffersToWrite := [] }
  | .lastFlush => do
      let output ← flushOut s
      return { s with pc := .exited, output := some output }

inductive Input
  | append (logline : List UInt8)
  /-- `start` up to the latch -/
  | start
  /-- the store of `stop` -/
  | stop
  | logger (env : Env)

/-- `start` is called once and waits for the latch, so a `stop` after it finds
the logging thread past its first assertion. -/
def Allowed (s : State SIZE) : Input → Prop
  | .append _ => True
  | .start => s.pc = .idle
  | .stop => s.pc ≠ .idle ∧ s.pc ≠ .begin
  | .logger _ => True

instance (s : State SIZE) : (i : Input) → Decidable (Allowed s i)
  | .append _ | .logger _ => isTrue trivial
  | .start => inferInstanceAs (Decidable (s.pc = .idle))
  | .stop => inferInstanceAs (Decidable (s.pc ≠ .idle ∧ s.pc ≠ .begin))

def exec (cfg : Config) (s : State SIZE) : Input → Except Failure (State SIZE)
  | .append logline => append s logline
  | .start => .ok { s with running_ := true, pc := .begin }
  | .stop => .ok { s with running_ := false }
  | .logger env => loggerStep cfg s env

def system (SIZE : ℕ) (cfg : Config) : System (State SIZE) Input Failure where
  start := fun s => s = initial SIZE
  allowed := Allowed
  exec := exec cfg

instance (cfg : Config) (s : State SIZE) (i : Input) :
    Decidable ((system SIZE cfg).allowed s i) :=
  inferInstanceAs (Decidable (Allowed s i))

end TinyMuduo.AsyncLogging
