import BuildStepper.Wire.Command
import BuildStepper.Wire.Line
import BuildStepper.Wire.Notification

/-!
# Messages off a stream

Commands and notifications arrive as lines of a stream. The two sides read them differently.

A command is always one line. What cannot be read as a command, because it is too long, no text or
no command, is passed over, and the stream of commands goes on behind it (`commands`).

A notification may hold line ends inside its texts, and only reading it tells. `readNotification`
therefore joins lines for as long as what it has is truncated; it never looks beyond the line that
completes the message. All lines of one message together have a limit, so that no peer can make the
message grow without end.

Where bytes arrive in pieces that know nothing of lines, what is behind the last line feed is kept
until more arrives, or until the sender closes (`Inbox`).
-/

namespace BuildStepper.Wire

/-- The length in bytes that a command line can have. -/
def maxCommandBytes : Nat := 64 * 1024

/-- The length in bytes that a notification can have, with its inner line ends. -/
def maxNotificationBytes : Nat := 16 * 1024 * 1024

/-- Why the commands of a stream end. -/
inductive StreamEnd where
  | closed
  | failed (error : WireError)
deriving DecidableEq, Repr

/-- The commands on a stream in order, and why there are no more. A line that is too long, not UTF-8
or no command is passed over. -/
def commands (stream : Stream) : List Command × StreamEnd :=
  match h : readLine maxCommandBytes stream with
  | (.ok none, _) => ([], .closed)
  | (.ok (some line), rest) =>
    have : rest.size < stream.size := by
      rcases readLineFrom_size maxCommandBytes (some .empty) stream with hlt | rfl
      · rw [← readLine, h] at hlt; exact hlt
      · simp [readLine, readLineFrom, ByteArray.isEmpty] at h
    let (later, ending) := commands rest
    match Command.decode line with
    | .ok command => (command :: later, ending)
    | .error _ => (later, ending)
  | (.error (.io reason), _) => ([], .failed (.io reason))
  | (.error _, rest) =>
    have : rest.size < stream.size := by
      rcases readLineFrom_size maxCommandBytes (some .empty) stream with hlt | rfl
      · rw [← readLine, h] at hlt; exact hlt
      · simp [readLine, readLineFrom, ByteArray.isEmpty] at h
    commands rest
termination_by stream.size

/-- Reads the rest of a notification of which the lines in `message` are already read. -/
def readNotificationFrom (message : String) (stream : Stream) :
    Except WireError (Option Notification) × Stream :=
  match h : readLine (maxNotificationBytes - message.utf8ByteSize) stream with
  | (.error e, rest) => (.error e, rest)
  | (.ok none, rest) => (if message.isEmpty then .ok none else .error .truncated, rest)
  | (.ok (some line), rest) =>
    have : rest.size < stream.size := by
      rcases readLineFrom_size (maxNotificationBytes - message.utf8ByteSize) (some .empty) stream
        with hlt | rfl
      · rw [← readLine, h] at hlt; exact hlt
      · simp [readLine, readLineFrom, ByteArray.isEmpty] at h
    let message := message ++ line
    match Notification.decode message with
    | .ok notification => (.ok (some notification), rest)
    | .error .truncated =>
      if line.toList.getLast? = some '\n' then readNotificationFrom message rest
      else (.error .truncated, rest)
    | .error e => (.error e, rest)
termination_by stream.size

/-- Reads one notification: the notification, or `none` at the end of the stream, or why there is
none; and the stream behind it. -/
def readNotification (stream : Stream) : Except WireError (Option Notification) × Stream :=
  readNotificationFrom "" stream

/-- The bytes of a line that is not at its end. -/
structure Inbox where
  kept : ByteArray := .empty

namespace Inbox

/-- The place behind the last line feed among the first `n` bytes, or the beginning. -/
def behindLast (bytes : ByteArray) : Nat → Nat
  | 0 => 0
  | n + 1 => if bytes[n]? = some lineFeed then n + 1 else behindLast bytes n

/-- Bytes arrive: the commands on the lines that they complete. -/
def receive (inbox : Inbox) (bytes : ByteArray) : List Command × Inbox :=
  let all := inbox.kept ++ bytes
  let n := behindLast all all.size
  ((commands [.chunk (all.extract 0 n)]).1, ⟨all.extract n all.size⟩)

/-- The sender closes: the command on the line that is left. -/
def close (inbox : Inbox) : List Command :=
  (commands [.chunk inbox.kept]).1

end Inbox

end BuildStepper.Wire
