import EarlyBoot.DeviceTree.Token

set_option autoImplicit false

namespace EarlyBoot.DeviceTree

structure Writer where
  block : List UInt8
  strings : List UInt8
  names : List (String × Nat)
  deriving DecidableEq, Repr

namespace Writer

def empty : Writer := ⟨[], [], []⟩

def emit (writer : Writer) (bytes : List UInt8) : Writer :=
  { writer with block := writer.block ++ bytes }

def word (value : UInt32) : List UInt8 :=
  Bytes.bigEndian 4 value.toNat

def padding (length : Nat) : List UInt8 :=
  List.replicate (aligned length - length) 0

def terminated (text : String) : List UInt8 :=
  text.toUTF8.data.toList ++ [0]

def intern (writer : Writer) (name : String) : Nat × Writer :=
  match writer.names.lookup name with
  | some offset => (offset, writer)
  | none =>
    let offset := writer.strings.length
    (offset, { writer with
      strings := writer.strings ++ terminated name
      names := writer.names ++ [(name, offset)] })

def beginNode (writer : Writer) (name : String) : Writer :=
  let text := terminated name
  writer.emit (word Tag.beginNode ++ text ++ padding text.length)

def endNode (writer : Writer) : Writer :=
  writer.emit (word Tag.endNode)

def nop (writer : Writer) : Writer :=
  writer.emit (word Tag.nop)

def property (writer : Writer) (name : String) (value : List UInt8) : Writer :=
  let (offset, writer) := writer.intern name
  writer.emit (word Tag.property ++ Bytes.bigEndian 4 value.length ++ Bytes.bigEndian 4 offset ++
    value ++ padding value.length)

def cellProperty (writer : Writer) (name : String) (value : UInt32) : Writer :=
  writer.property name (word value)

def textProperty (writer : Writer) (name text : String) : Writer :=
  writer.property name (terminated text)

def regionsProperty (writer : Writer) (regions : List (UInt64 × UInt64)) : Writer :=
  writer.property "reg" (regions.flatMap fun (base, size) =>
    Bytes.bigEndian 8 base.toNat ++ Bytes.bigEndian 8 size.toNat)

def reservationsOffset : Nat := 40

def structureOffset : Nat := 56

def blob (writer : Writer) : List UInt8 :=
  let stringsOffset := structureOffset + writer.block.length
  let header : Header := {
    magic := Header.knownMagic
    totalSize := UInt32.ofNat (stringsOffset + writer.strings.length)
    structureOffset := UInt32.ofNat structureOffset
    stringsOffset := UInt32.ofNat stringsOffset
    reservationsOffset := UInt32.ofNat reservationsOffset
    version := Header.lastVersion
    lastCompatible := Header.firstVersion
    bootProcessor := 0
    stringsSize := UInt32.ofNat writer.strings.length
    structureSize := UInt32.ofNat writer.block.length
  }
  header.encode ++ List.replicate (structureOffset - Header.size) 0 ++ writer.block ++
    writer.strings

-- further steps append after the end token
def finish (writer : Writer) : List UInt8 × Writer :=
  let ended := writer.emit (word Tag.finish)
  (ended.blob, ended)

inductive Step where
  | beginNode (name : String)
  | endNode
  | nop
  | property (name : String) (value : List UInt8)
  | cellProperty (name : String) (value : UInt32)
  | textProperty (name text : String)
  | regionsProperty (regions : List (UInt64 × UInt64))
  | finish
  deriving DecidableEq, Repr

def apply (writer : Writer) : Step → Option (List UInt8) × Writer
  | .beginNode name => (none, writer.beginNode name)
  | .endNode => (none, writer.endNode)
  | .nop => (none, writer.nop)
  | .property name value => (none, writer.property name value)
  | .cellProperty name value => (none, writer.cellProperty name value)
  | .textProperty name text => (none, writer.textProperty name text)
  | .regionsProperty regions => (none, writer.regionsProperty regions)
  | .finish => (some writer.finish.1, writer.finish.2)

def run (writer : Writer) : List Step → List (List UInt8)
  | [] => []
  | step :: rest =>
    let (finished, after) := writer.apply step
    finished.toList ++ after.run rest

end Writer

end EarlyBoot.DeviceTree
