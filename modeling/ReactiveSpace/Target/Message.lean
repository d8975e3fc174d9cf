import ReactiveSpace.Target.Members

/-!
# Messages in the target source

A message becomes a plain structure of native values that is written and read field by field.
-/

namespace ReactiveSpace.Target

/-- The statement that writes a field of a message. -/
def writeStatement (f : Field Node) : String :=
  "__writer.write_field(\"" ++ f.name ++ "\", &self." ++ f.name ++ ");"

/-- The branch that reads a field of a message. -/
def readBranch (f : Field Node) : String :=
  "\"" ++ f.name ++ "\" => __msg." ++ f.name ++ " = __reader.read_value(),"

/-- The source of a message. -/
def message (t : Table) (s : Structure Node) : List Code :=
  let type := messageType s.name
  [.line "#[derive(Debug, Clone, Default, PartialEq)]",
    .nest ("pub struct " ++ type)
      (s.fields.map fun f =>
        .line ("pub " ++ f.name ++ ": " ++ (shapeIn t s f.type).nativeType ++ ",")),
    .blank,
    .nest ("impl NtMessage for " ++ type)
      [.nest "fn write(&self, __writer: &mut JsonStreamWriter)"
          (.line "__writer.begin_object();" ::
            s.fields.map (fun f => .line (writeStatement f)) ++
            [.line "__writer.end_object();"]),
        .blank,
        .nest "fn read(__reader: &mut JsonStreamReader) -> Self"
          [.line "let mut __msg = Self::default();",
            .nest "while let Some(__key) = __reader.next_field()"
              [.nest "match __key.as_str()"
                (s.fields.map (fun f => .line (readBranch f)) ++
                  [.line "_ => __reader.skip_value(),"])],
            .line "__msg"]]]

end ReactiveSpace.Target
