import IrDialects.V4.Document

/-!
# Texts of types and values

A type or a value can be read from a text, or written to one, without a document around it.
-/

namespace IrDialects

/-- Reads what the JSON value that bytes spell stands for. -/
def Decoded.ofBytes {α : Type} (decode : Json → Decoded α) (bytes : List UInt8) : Except Fault α :=
  match Json.parseBytes bytes with
  | .error e => .error (.plain e.message)
  | .ok v => (decode v).mapError .issue

namespace Classic

def readType : List UInt8 → Except Fault ClassicType := Decoded.ofBytes (decodeType plainAttrs)

def writeType (t : ClassicType) : Except Json.WriteFault String :=
  Json.marshal (encodeType plainAttrs t)

def readValue : List UInt8 → Except Fault ClassicValue := Decoded.ofBytes (decodeValue codec)

def writeValue (v : ClassicValue) : Except Json.WriteFault String :=
  Json.marshal (encodeValue codec v)

end Classic

namespace V4

def readType : List UInt8 → Except Fault V4Type := Decoded.ofBytes decodeType

def writeType (m : Mode) (t : V4Type) : Except Json.WriteFault String :=
  Json.marshal (encodeType m t)

def readValue : List UInt8 → Except Fault V4Value := Decoded.ofBytes decodeValue

def writeValue (m : Mode) (v : V4Value) : Except Json.WriteFault String :=
  Json.marshal (encodeValue m v)

end V4

end IrDialects
