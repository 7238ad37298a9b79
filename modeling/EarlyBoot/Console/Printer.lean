import EarlyBoot.Console.Uart

set_option autoImplicit false

namespace EarlyBoot.Console

structure Printer where
  locked : Bool
  frozen : Bool
  -- how often the line status was read
  polled : Nat
  deriving DecidableEq, Repr

structure Printed where
  accesses : List Access
  printer : Printer
  returned : Bool
  deriving DecidableEq, Repr

def Printed.andThen (first : Printed) (next : Printer → Printed) : Printed :=
  if first.returned then
    let later := next first.printer
    { later with accesses := first.accesses ++ later.accesses }
  else first

def encodeCharacter (c : Char) : List UInt8 :=
  if c = '\n' then [13, 10] else String.utf8EncodeChar c

namespace Printer

def idle : Printer := ⟨false, false, 0⟩

def freeze (printer : Printer) : Printer :=
  { printer with frozen := true }

def write (line : LineStatus) (printer : Printer) : List Char → Printed
  | [] => ⟨[], printer, true⟩
  | c :: rest =>
    if printer.frozen then ⟨[], printer, false⟩
    else
      let (accesses, polled) := Uart.send line printer.polled (encodeCharacter c)
      let later := write line { printer with polled } rest
      { later with accesses := accesses ++ later.accesses }

def writeAll (line : LineStatus) (printer : Printer) : List String → Printed
  | [] => ⟨[], printer, true⟩
  | piece :: rest => (printer.write line piece.toList).andThen fun next => next.writeAll line rest

def print (line : LineStatus) (printer : Printer) (pieces : List String) : Printed :=
  -- nobody is left to give the lock back
  if printer.locked then ⟨[], printer, false⟩
  else
    let written := { printer with locked := true }.writeAll line pieces
    if written.returned then
      { written with printer := { written.printer with locked := false } }
    else written

def printAll (line : LineStatus) (printer : Printer) : List String → Printed
  | [] => ⟨[], printer, true⟩
  | text :: rest => (printer.print line [text]).andThen fun next => next.printAll line rest

end Printer

end EarlyBoot.Console
