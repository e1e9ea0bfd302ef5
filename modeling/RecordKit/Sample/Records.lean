import RecordKit.Record.Declared
import RecordKit.Sample.UserTypes

/-!
# Sample records

Shapes of declared structs: flat and nested forms of one record, structs with
hidden, sealed and undescribed members, a form with every default rule, and a
page that holds items of any type.
-/

namespace RecordKit

namespace Sample

open FieldType

def signed (w : Width) : FieldType SampleType := .int ⟨true, w⟩

def unsigned (w : Width) : FieldType SampleType := .int ⟨false, w⟩

/-- A shape that goes by the same name as its type. -/
def shape (name : String) (fields : List (Field SampleType)) : Shape SampleType :=
  ⟨⟨name, name⟩, fields⟩

def checked (tag : String) (f : Field SampleType) : Field SampleType :=
  { f with check := some tag }

/-- A field that copies never write. -/
def unexported (f : Field SampleType) : Field SampleType :=
  { f with exported := false }

/-- A field without a view. -/
def sealedField (f : Field SampleType) : Field SampleType :=
  { f with isSealed := true }

/-- Who made a record and in which version. -/
def audit : Shape SampleType :=
  shape "Audit"
    [ .basic "created_by" .string,
      checked "min=1" (.basic "version" (unsigned .w32)) ]

/-- A record in flat form. -/
def flat : Shape SampleType :=
  shape "Flat"
    [ .basic "id" (unsigned .w64),
      .basic "created_by" .string,
      .basic "version" (unsigned .w64) ]

/-- The record in nested form. -/
def nested : Shape SampleType :=
  shape "Nested"
    [ .basic "id" (unsigned .w64),
      checked "request,min=1" (.embedding "audit" audit) ]

/-- A nested form that hides a promoted field behind one of its own. -/
def nestedCopy : Shape SampleType :=
  shape "NestedCopy"
    [ .basic "id" (signed .w16),
      .embedding "audit" audit,
      .basic "version" (signed .w8) ]

/-- The nested form without embedding. -/
def plain : Shape SampleType :=
  shape "Plain"
    [ .basic "id" (unsigned .w64),
      .basic "audit" (.struct audit.id) ]

def empty : Shape SampleType :=
  shape "Empty" []

/-- A struct whose field names are reserved words elsewhere. -/
def raw : Shape SampleType :=
  shape "Raw"
    [ .basic "type" .string,
      checked "min=2" (.basic "match" (unsigned .w8)) ]

/-- Another form of the same struct. -/
def rawView : Shape SampleType :=
  shape "RawView"
    [ .basic "type" byteList,
      .basic "match" (signed .w64),
      .basic "skipped" (unsigned .w32) ]

/-- A struct with three unexported fields. -/
def hidden : Shape SampleType :=
  shape "Hidden"
    [ checked "request" (unexported (.basic "secret" (.option .string))),
      checked "max=3" (unexported (.basic "level" (unsigned .w8))),
      unexported (.basic "note" .string),
      .basic "shown" .bool ]

/-- The same fields, all exported. -/
def exposed : Shape SampleType :=
  shape "Exposed"
    [ .basic "secret" (.option .string),
      .basic "level" (unsigned .w8),
      .basic "note" .string,
      .basic "shown" .bool ]

/-- A session with a sealed lifetime and a token of its own. -/
def session : Shape SampleType :=
  shape "Session"
    [ .basic "user" .string,
      sealedField (.basic "ttl" (.user .duration)),
      .basic "note" (.option .string),
      .basic "retries" (.option (signed .w32)),
      unexported (sealedField (.basic "token" .string)) ]

/-- A session as others see it. -/
def sessionView : Shape SampleType :=
  shape "SessionView"
    [ .basic "user" byteList,
      sealedField (.basic "ttl" (.user .duration)),
      .basic "note" (.option .string),
      .basic "retries" (.option (signed .w64)),
      sealedField (.basic "token" .string) ]

/-- A form that uses every default rule. -/
def register : Shape SampleType :=
  shape "Register"
    [ checked "request,min=3,max=16" (.basic "username" .string),
      checked "email" (.basic "email" .string),
      checked "fixed=11" (.basic "phone" .string),
      checked "uuid" (.basic "invite" .string),
      checked "request" (.basic "roles" (.list .string)),
      checked "request" (.basic "labels" (.hashMap .string .string)),
      checked "  " (.basic "note" .string),
      checked "max=2" (.basic "order" (.treeMap .string (signed .w32))) ]

/-- A struct with a misspelt rule. -/
def typo : Shape SampleType :=
  shape "Typo"
    [ checked "min=1" (.basic "id" (signed .w64)),
      checked "requset" (.basic "name" .string) ]

/-- A page of items.  Pages of different items are different types of one name. -/
def page (itemName : String) (item : FieldType SampleType) : Shape SampleType :=
  ⟨⟨"Page<" ++ itemName ++ ">", "Page"⟩,
    [ checked "request" (.basic "items" (.list item)),
      .basic "first" item,
      .basic "total" (unsigned .size) ]⟩

def all : List (Declared SampleType) :=
  [ ⟨audit, []⟩, ⟨flat, []⟩, ⟨nested, []⟩, ⟨nestedCopy, []⟩, ⟨plain, []⟩, ⟨empty, []⟩,
    ⟨raw, [("skipped", unsigned .w32)]⟩, ⟨rawView, []⟩, ⟨hidden, []⟩, ⟨exposed, []⟩,
    ⟨session, []⟩, ⟨sessionView, []⟩, ⟨register, []⟩, ⟨typo, []⟩,
    ⟨page "i32" (signed .w32), []⟩, ⟨page "u8" (unsigned .w8), []⟩,
    ⟨page "String" .string, []⟩ ]

def find? (typeName : String) : Option (Declared SampleType) :=
  all.find? (·.shape.id.id == typeName)

end Sample

end RecordKit
