/-!
# Type names

Types of a layout are names. The primitive types of a source have names of fixed width; every other
name stays as it is, array brackets included.
-/

namespace ClassLayout

abbrev TypeName := String

namespace TypeName

def void : TypeName := "void"

/-- The layout's name for a type of the source. -/
def ofSource (spelling : String) : TypeName :=
  if spelling = "long" then "int64_t"
  else if spelling = "int" then "int32_t"
  else if spelling = "short" then "int16_t"
  else if spelling = "byte" then "int8_t"
  else if spelling = "boolean" then "bool"
  else spelling

end TypeName

end ClassLayout
