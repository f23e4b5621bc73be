import GameClient.Program
/-!
The command line. This layer only reads and prints: it hands the arguments and the environment to
`Program.run`, and each line of the standard input to `react`. It starts no other program, so the
page itself is not opened from here.
-/

namespace GameClient.CommandLine

/-- The variables that the client looks at, with their values. -/
def readEnvironment : IO Environment := do
  let entries ← Setting.all.mapM fun setting => do
    return (setting.envName, ← IO.getEnv setting.envName)
  return fun name => (entries.lookup name).join

/-- Adds the bytes of a line, its end included, to those read before. No byte is read beyond the
line, so that an answer can be given before the next one is typed. -/
partial def readLine (input : IO.FS.Stream) (line : ByteArray) : IO ByteArray := do
  let next ← input.read 1
  match next[0]? with
  | none => return line
  | some byte =>
    let line := line.push byte
    if byte = Text.Lines.lf then return line else readLine input line

/-- Answers lines until one of them ends the session, the input ends or a line is no text. -/
partial def converse (menu : Option MenuBar) (input output : IO.FS.Stream) : IO Unit := do
  let line ← readLine input ByteArray.empty
  if line.isEmpty then return ()
  match Text.Utf8.decode? line.toList with
  | none => return ()
  | some text =>
    match react menu text with
    | .quit => return ()
    | .answer reply =>
      output.putStr reply
      output.flush
    | .ignore | .activate _ => pure ()
    converse menu input output

/-- Shows the window with these settings until the user closes it. -/
def showWindow (settings : Settings) : IO Unit := do
  let output ← IO.getStdout
  output.putStr (Session.heading settings)
  match settings.page with
  | .error _ => return ()
  | .ok _ =>
    let menu := Session.menu settings
    output.putStr (Session.invitation menu)
    output.flush
    converse menu (← IO.getStdin) output

end GameClient.CommandLine

open GameClient CommandLine in
/-- Runs the client and gives its exit code. -/
def main (args : List String) : IO UInt32 := do
  let run := Program.run args (← readEnvironment)
  for effect in run.effects do
    match effect with
    | .out text => IO.println text
    | .err text => IO.eprintln text
    | .createWindow _ => pure ()
    | .showWindow => run.window?.forM showWindow
  return run.code.toUInt32
