import Recordsmith.Record.Assembly
import Recordsmith.Record.Report
import Recordsmith.Value.Reading

/-! Records as values: every model is written with all its parts, and read with its defaults for parts left out. -/

namespace Recordsmith

open Value

def texts (items : List String) : Value := .list (items.map .text)

/-! ### Declarations -/

def MemberKind.text : MemberKind → String
  | .variable => "variable"
  | .other => "other"

def MemberKind.ofText? (text : String) : Option MemberKind :=
  [MemberKind.variable, .other].find? (·.text == text)

def Member.toValue (m : Member) : Value := .object [
  ("kind", .text m.kind.text), ("name", ofOption .text m.name), ("type", ofOption .text m.type),
  ("is_mutable", .bool m.isMutable), ("modifiers", texts m.modifiers), ("has_initializer", .bool m.hasInitializer),
  ("has_accessor_block", .bool m.hasAccessorBlock)]

def Member.ofValue : Value → Checked Member := readObject fun parts =>
  Member.mk
    <$> optional "kind" (readOneOf MemberKind.ofText?) .variable parts
    <*> optional "name" (readOption readText) none parts
    <*> optional "type" (readOption readText) none parts
    <*> optional "is_mutable" readBool false parts
    <*> optional "modifiers" (readList readText) [] parts
    <*> optional "has_initializer" readBool false parts
    <*> optional "has_accessor_block" readBool false parts

def Span.toValue (s : Span) : Value := .object [
  ("start", .int s.start), ("end", .int s.stop), ("body_close", .int s.bodyClose),
  ("marker_start", ofOption .int s.markerStart), ("marker_end", ofOption .int s.markerEnd),
  ("member_indent", .text s.memberIndent), ("base_indent", .text s.baseIndent)]

def Span.ofValue : Value → Checked Span := readObject fun parts =>
  Span.mk
    <$> required "start" readInt parts
    <*> required "end" readInt parts
    <*> required "body_close" readInt parts
    <*> optional "marker_start" (readOption readInt) none parts
    <*> optional "marker_end" (readOption readInt) none parts
    <*> optional "member_indent" readText defaultIndent parts
    <*> optional "base_indent" readText "" parts

def AggregateKind.ofText? (text : String) : Option AggregateKind :=
  [AggregateKind.value, .reference, .other].find? (·.text == text)

def Declaration.toValue (d : Declaration) : Value := .object [
  ("name", .text d.name), ("kind", .text d.kind.text), ("modifiers", texts d.modifiers), ("is_final", .bool d.isFinal),
  ("type_parameters", texts d.typeParameters), ("members", .list (d.members.map Member.toValue)),
  ("span", ofOption Span.toValue d.span)]

def Declaration.ofValue : Value → Checked Declaration := readObject fun parts =>
  Declaration.mk
    <$> required "name" readText parts
    <*> required "kind" (readOneOf AggregateKind.ofText?) parts
    <*> optional "modifiers" (readList readText) [] parts
    <*> optional "is_final" readBool false parts
    <*> optional "type_parameters" (readList readText) [] parts
    <*> optional "members" (readList Member.ofValue) [] parts
    <*> optional "span" (readOption Span.ofValue) none parts

/-! ### Fields and generated members -/

def Field.toValue (f : Field) : Value := .object [
  ("name", ofOption .text f.name), ("type", ofOption .text f.type), ("is_mutable", .bool f.isMutable),
  ("is_private", .bool f.isPrivate), ("has_default_value", .bool f.hasDefault)]

def Field.ofValue : Value → Checked Field := readObject fun parts =>
  Field.mk
    <$> required "name" (readOption readText) parts
    <*> required "type" (readOption readText) parts
    <*> optional "is_mutable" readBool false parts
    <*> optional "is_private" readBool false parts
    <*> optional "has_default_value" readBool false parts

def Parameter.toValue (p : Parameter) : Value := .object [("name", .text p.name), ("type", .text p.type)]

def Parameter.ofValue : Value → Checked Parameter := readObject fun parts =>
  Parameter.mk <$> required "name" readText parts <*> required "type" readText parts

def Argument.toValue (a : Argument) : Value := .object [
  ("label", .text a.label), ("expression", .text a.expression), ("from_parameter", .bool a.fromParameter),
  ("via_receiver", .bool a.viaReceiver)]

def Argument.ofValue : Value → Checked Argument := readObject fun parts =>
  Argument.mk
    <$> required "label" readText parts
    <*> required "expression" readText parts
    <*> optional "from_parameter" readBool false parts
    <*> optional "via_receiver" readBool false parts

def Constructor.parts (c : Constructor) : List (String × Value) := [
  ("parameters", .list (c.parameters.map Parameter.toValue)), ("assignments", texts c.assignments),
  ("access_modifier", ofOption .text c.accessModifier), ("required", .bool c.required)]

def Constructor.toValue (c : Constructor) : Value := .object c.parts

def Constructor.ofValue : Value → Checked Constructor := readObject fun parts =>
  Constructor.mk
    <$> optional "parameters" (readList Parameter.ofValue) [] parts
    <*> optional "assignments" (readList readText) [] parts
    <*> optional "access_modifier" (readOption readText) none parts
    <*> optional "required" readBool false parts

def Wither.parts (w : Wither) : List (String × Value) := [
  ("name", .text w.name), ("parameter", w.parameter.toValue), ("arguments", .list (w.arguments.map Argument.toValue)),
  ("access_modifier", ofOption .text w.accessModifier)]

def Wither.toValue (w : Wither) : Value := .object w.parts

def Wither.ofValue : Value → Checked Wither := readObject fun parts =>
  Wither.mk
    <$> required "name" readText parts
    <*> required "parameter" Parameter.ofValue parts
    <*> optional "arguments" (readList Argument.ofValue) [] parts
    <*> optional "access_modifier" (readOption readText) none parts

/-- A generated member says which of the two it is. -/
def GeneratedMember.toValue : GeneratedMember → Value
  | .constructor c => .object (("member", .text "constructor") :: c.parts)
  | .wither w => .object (("member", .text "wither") :: w.parts)

/-- A member that does not say it is a constructor is read as a wither. -/
def GeneratedMember.ofValue : Value → Checked GeneratedMember
  | .map entries =>
    match entry? "member" entries with
    | some (.text "constructor") => (Constructor.ofValue (.map entries)).map .constructor
    | _ => (Wither.ofValue (.map entries)).map .wither
  | value => (Wither.ofValue value).map .wither

def Synthesis.toValue (s : Synthesis) : Value := .object [
  ("strict", .bool s.strict), ("parameter_name", .text s.parameterName), ("marker", .text s.marker)]

/-- Nothing has a name with surrogates, so a marker with some marks nothing, as an empty one does. -/
def readMarker : Value → Checked String
  | .rawText _ => .ok ""
  | value => readText value

def Synthesis.ofValue : Value → Checked Synthesis := readObject fun parts =>
  Synthesis.mk
    <$> optional "strict" readBool false parts
    <*> optional "parameter_name" readText "value" parts
    <*> optional "marker" readMarker "Buildable" parts

def Report.toValue (r : Report) : Value := .object [
  ("name", ofOption .text r.name), ("type", ofOption .text r.type), ("classification", .text r.classification.text),
  ("representable", .bool r.representable), ("private", .bool r.isPrivate), ("mutable", .bool r.isMutable),
  ("has_default", .bool r.hasDefault), ("wither", .bool r.hasWither)]

end Recordsmith
