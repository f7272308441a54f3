import Recordsmith.Record.Assembly

/-! Rendering: generated members as source text. -/

namespace Recordsmith.Code

/-- How a language writes generated members. A rendered member starts at the left margin and its inner lines are
    indented by the given unit. -/
structure Renderer where
  constructor : Constructor → Declaration → String → String
  wither : Wither → Declaration → String → String

/-- The text of one member. -/
def Renderer.member (r : Renderer) (d : Declaration) (indent : String) : GeneratedMember → String
  | .constructor c => r.constructor c d indent
  | .wither w => r.wither w d indent

/-- The texts of the members, in their order. -/
def Renderer.members (r : Renderer) (members : List GeneratedMember) (d : Declaration) (indent : String) :
    List String :=
  members.map (r.member d indent)

end Recordsmith.Code
