import Restconf.Fault

/-!
# Line sinks

Where the lines of a subscription go.

## Main definitions

* `LineSink` — what a consumer asks of a sink: to write a line, and to close; and what the far end
  of the sink can do meanwhile.
* `ChunkChannel` — a bounded channel of chunks with a reader at its far end.
* `Recorder` — a sink that keeps its lines and can be made to fail.
* `Sink` — either of the two.
-/

namespace Restconf

/-- What comes of an attempt to write a line. -/
inductive WriteOutcome (σ : Type) where
  /-- The line has been taken. -/
  | written (sink : σ)
  /-- The sink refuses the line and will take no more. -/
  | refused (fault : Fault)
  /-- There is no room yet; the attempt has to be repeated. -/
  | pending
  /-- The attempt brought the consumer down. -/
  | crashed

/-- What comes of an attempt to release a sink. -/
inductive CloseOutcome (σ : Type) where
  /-- The attempt has come to its end. Whether the sink reports a fault makes no difference. -/
  | closed (sink : σ)
  /-- The sink is not done; the attempt has to be repeated. -/
  | pending
  /-- The attempt brought the consumer down. -/
  | crashed

/-- A receiver of lines. -/
class LineSink (σ : Type) where
  /-- Attempts to write a line. -/
  write : σ → String → WriteOutcome σ
  /-- Attempts to release the sink. -/
  close : σ → CloseOutcome σ
  /-- What can happen at the far end. -/
  FarStep : σ → σ → Prop

/-! ### Channels -/

/-- What ends a line on a channel. -/
def lineTerminator : String := "\r\n"

/-- A bounded channel between a consumer and a reader. -/
structure ChunkChannel where
  /-- How many chunks fit. -/
  capacity : Nat
  /-- The chunks that wait for the reader, oldest first. -/
  chunks : List String := []
  /-- The reader is gone. -/
  isAbandoned : Bool := false
  /-- The consumer has let go of its end. -/
  isEnded : Bool := false
deriving DecidableEq, Repr

namespace ChunkChannel

/-- An empty channel; a capacity of zero counts as one. -/
def ofCapacity (capacity : Nat) : ChunkChannel := { capacity := max 1 capacity }

/-- Takes the oldest chunk. -/
def take? (channel : ChunkChannel) : Option (String × ChunkChannel) :=
  match channel.chunks with
  | [] => none
  | chunk :: rest => some (chunk, { channel with chunks := rest })

/-- The reader goes away. -/
def abandon (channel : ChunkChannel) : ChunkChannel :=
  { channel with isAbandoned := true, chunks := [] }

/-- The consumer lets go of its end. -/
def finish (channel : ChunkChannel) : ChunkChannel := { channel with isEnded := true }

/-- The reader has seen everything. -/
def isExhausted (channel : ChunkChannel) : Bool := channel.isEnded && channel.chunks.isEmpty

/-- The reader takes a chunk, or goes away. -/
inductive ReaderStep : ChunkChannel → ChunkChannel → Prop where
  | take {channel rest : ChunkChannel} {chunk : String} (h : channel.take? = some (chunk, rest)) :
      ReaderStep channel rest
  | abandon (channel : ChunkChannel) : ReaderStep channel channel.abandon

instance : LineSink ChunkChannel where
  write channel line :=
    if channel.isAbandoned || channel.isEnded then .refused .sinkClosed
    else if channel.chunks.length < channel.capacity then
      .written { channel with chunks := channel.chunks ++ [line ++ lineTerminator] }
    else .pending
  close channel := .closed channel.finish
  FarStep := ReaderStep

end ChunkChannel

/-! ### Recorders -/

/-- What a recorder does with lines beyond its limit. -/
inductive Limit where
  | refuse (fault : Fault)
  | stall
  | crash
deriving DecidableEq, Repr

/-- A sink that keeps its lines for a reader, up to a limit if it has one. -/
structure Recorder where
  /-- The lines that the reader has not taken yet. -/
  lines : List String := []
  /-- How many lines it has been given so far. -/
  count : Nat := 0
  /-- How many lines it keeps in all, and what it does then. -/
  limit : Option (Nat × Limit) := none
  /-- Leaves a mark behind the lines when it is closed. -/
  marksClose : Bool := false
deriving DecidableEq, Repr

namespace Recorder

/-- The mark that a closed recorder leaves. -/
def closeMark : String := "<close>"

/-- The reader takes all lines. -/
def drain (recorder : Recorder) : Recorder := { recorder with lines := [] }

/-- The reader takes all lines. -/
inductive ReaderStep : Recorder → Recorder → Prop where
  | drain (recorder : Recorder) : ReaderStep recorder recorder.drain

instance : LineSink Recorder where
  write recorder line :=
    let keep := WriteOutcome.written
      { recorder with lines := recorder.lines ++ [line], count := recorder.count + 1 }
    match recorder.limit with
    | none => keep
    | some (most, limit) =>
      if recorder.count < most then keep
      else
        match limit with
        | .refuse fault => .refused fault
        | .stall => .pending
        | .crash => .crashed
  close recorder :=
    .closed (if recorder.marksClose then { recorder with lines := recorder.lines ++ [closeMark] }
      else recorder)
  FarStep := ReaderStep

end Recorder

/-! ### Sinks -/

/-- A channel or a recorder. -/
inductive Sink where
  | channel (channel : ChunkChannel)
  | recorder (recorder : Recorder)
deriving DecidableEq, Repr

section Map

variable {σ τ : Type}

/-- An outcome for a sink that is part of another. -/
def WriteOutcome.map (f : σ → τ) : WriteOutcome σ → WriteOutcome τ
  | written sink => .written (f sink)
  | refused fault => .refused fault
  | pending => .pending
  | crashed => .crashed

@[inherit_doc WriteOutcome.map]
def CloseOutcome.map (f : σ → τ) : CloseOutcome σ → CloseOutcome τ
  | closed sink => .closed (f sink)
  | pending => .pending
  | crashed => .crashed

end Map

namespace Sink

/-- What the reader of a channel or a recorder does. -/
inductive ReaderStep : Sink → Sink → Prop where
  | channel {before after : ChunkChannel} (h : ChunkChannel.ReaderStep before after) :
      ReaderStep (.channel before) (.channel after)
  | recorder {before after : Recorder} (h : Recorder.ReaderStep before after) :
      ReaderStep (.recorder before) (.recorder after)

instance : LineSink Sink where
  write
    | channel c, line => (LineSink.write c line).map channel
    | recorder r, line => (LineSink.write r line).map recorder
  close
    | channel c => (LineSink.close c).map channel
    | recorder r => (LineSink.close r).map recorder
  FarStep := ReaderStep

/-- The reader of a channel goes away. A recorder goes on without its reader. -/
def abandon : Sink → Sink
  | channel c => channel c.abandon
  | recorder r => recorder r

end Sink

end Restconf
