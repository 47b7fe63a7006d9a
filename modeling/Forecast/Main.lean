import Forecast.CommandLine
import Std.Time.Zoned

namespace Forecast.CommandLine

def readToday : IO Date := do
  let now ← Std.Time.PlainDate.now
  match Date.ofParts? now.year now.month.val.toNat now.day.val.toNat with
  | some today => return today
  | none => throw (IO.userError "the clock is outside the supported calendar range")

partial def readAll (stream : IO.FS.Stream) (bytes : ByteArray) : IO ByteArray := do
  let more ← stream.read 65536
  if more.isEmpty then return bytes else readAll stream (bytes ++ more)

def readInput (file : Option String) : IO (Except ReadError ByteArray) := do
  try
    match file with
    | some path => return .ok (← IO.FS.readBinFile path)
    | none => return .ok (← readAll (← IO.getStdin) .empty)
  catch
    | .noFileOrDirectory .. => return .error .notFound
    | .inappropriateType .. => return .error .isDirectory
    | e => return .error (.other (toString e))

def finish (o : Outcome) : IO UInt32 := do
  (← IO.getStderr).putStr o.errors
  let output ← IO.getStdout
  output.putStr o.output
  output.flush
  return o.code.toUInt32

def evaluateTimed (c : Config) (source : List Char) : IO UInt32 := do
  let before ← IO.monoNanosNow
  let result ← IO.lazyPure fun _ => evaluateFully c.request source
  let after ← IO.monoNanosNow
  match c.present source s!"{(after - before) / 1000} µs" result with
  | .ok o => finish o
  | .error _ => return 101

end Forecast.CommandLine

open Forecast.CommandLine in
def main (args : List String) : IO UInt32 := do
  let terminal ← (← IO.getStdout).isTty
  match ← load readInput (← readToday) terminal args with
  | .error o => finish o
  | .ok (config, source) => evaluateTimed config source
