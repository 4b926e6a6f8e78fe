import Courier.Record.StreamRecord
import Courier.Wire.Percent

/-!
# Intake

Lines of input become batches of records. Lines without a record are skipped; bytes that are not
text end the input.
-/

namespace Courier.Runner

def recordOf? (line : String) : Option InboundRecord :=
  InboundRecord.ofText? (Text.trim line)

/-- Bytes up to each line feed; what follows the last one is a line if it is not empty. -/
def cutLines : Bytes → List Bytes
  | [] => []
  | b :: rest =>
    if b = 10 then [] :: cutLines rest
    else match cutLines rest with
      | [] => [[b]]
      | line :: lines => (b :: line) :: lines

def lineOf? (bytes : Bytes) : Option String :=
  (Wire.ofUtf8? bytes).map String.ofList

structure Tray where
  /-- Zero counts as one. -/
  size : Nat
  records : List InboundRecord := []

/-- Takes a line. A batch that is full comes out and leaves the tray empty. -/
def Tray.add (t : Tray) (line : String) : Option (List InboundRecord) × Tray :=
  let records := match recordOf? line with
    | some record => t.records ++ [record]
    | none => t.records
  if max t.size 1 ≤ records.length then (some records, { t with records := [] })
  else (none, { t with records })

structure Intake where
  full : List (List InboundRecord)
  rest : List InboundRecord
  /-- Whether the input ends where it ends, and not where it stops being text. -/
  ended : Bool

namespace Intake

def ofLines (t : Tray) : List (Option String) → Intake
  | [] => ⟨[], t.records, true⟩
  | none :: _ => ⟨[], t.records, false⟩
  | some line :: rest =>
    match t.add line with
    | (some batch, t) =>
      let later := ofLines t rest
      { later with full := batch :: later.full }
    | (none, t) => ofLines t rest

/-- The batches to be run: the last may be smaller, and is lost if the input does not end well. -/
def batches (i : Intake) : List (List InboundRecord) :=
  i.full ++ if i.ended && !i.rest.isEmpty then [i.rest] else []

def ofBytes (size : Nat) (bytes : Bytes) : Intake :=
  ofLines { size } ((cutLines bytes).map lineOf?)

end Intake

end Courier.Runner
