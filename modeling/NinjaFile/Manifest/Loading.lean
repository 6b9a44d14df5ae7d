import NinjaFile.Fault
import NinjaFile.FileTree
import NinjaFile.Manifest.Validation
import NinjaFile.Text.Utf8

/-!
# Loading manifests

A manifest file is UTF-8 text.  Whatever ends its lines is read as a newline.
-/

namespace NinjaFile.Manifest

inductive LoadFault where
  | absent (path : Text.Path)
  | unreachable (fault : PathFault) (path : Text.Path)
  | undecodable (fault : Text.Utf8.Fault)
  | invalid (issues : List Issue)
deriving DecidableEq, Repr

/-- A carriage return is a newline, and so is one with a newline behind it. -/
def newlines : List Char → List Char
  | [] => []
  | '\r' :: '\n' :: rest => '\n' :: newlines rest
  | '\r' :: rest => '\n' :: newlines rest
  | c :: rest => c :: newlines rest

/-- The text of a file. -/
def decodeFile (content : List UInt8) : Except LoadFault String :=
  match Text.Utf8.decode content with
  | .error fault => .error (.undecodable fault)
  | .ok text => .ok (String.ofList (newlines text.toList))

def ofFile (content : List UInt8) : Except LoadFault Manifest := do
  let text ← decodeFile content
  match ofText text with
  | .ok m => .ok m
  | .error issues => .error (.invalid issues)

def load (files : FileTree) (path : Text.Path) : Except LoadFault Manifest :=
  match files.isFile path with
  | .error fault => .error (.unreachable fault path)
  | .ok false => .error (.absent path)
  | .ok true =>
      match files.read path with
      | .ok content => ofFile content
      | .error fault => .error (.unreachable fault path)

end NinjaFile.Manifest
