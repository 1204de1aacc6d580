import XProtocol.Protocol

/-! The description of a service that a schema request is answered with. -/
namespace XProtocol
open Json

structure ServiceCapability where
  name : String
  description : String
  version : Option String

structure ServiceSchema where
  serviceName : String
  version : String
  inputSchema : Value
  outputSchema : Value
  stateSchema : Option Value
  capabilities : List ServiceCapability
  streamingModes : List String
  metadata : Value

def ServiceSchema.new (serviceName version : String) : ServiceSchema where
  serviceName := serviceName
  version := version
  inputSchema := .object [
    ("properties", .object [
      ("method", .object [("type", .string "string")]),
      ("payload", .object [("type", .string "object")])]),
    ("type", .string "object")]
  outputSchema := .object [
    ("properties", .object [
      ("payload", .object []),
      ("status", .object [("type", .string "string")])]),
    ("type", .string "object")]
  stateSchema := none
  capabilities := []
  streamingModes := ["result"]
  metadata := .object []

instance : Serde ServiceCapability where
  toValue c := .object [("name", toValue c.name), ("description", toValue c.description),
    ("version", toValue c.version)]
  ofValue v := do
    match ← structFields ["name", "description", "version"] v with
    | [name, description, version] =>
      return { name := ← requiredField name, description := ← requiredField description,
               version := ← optionalField version }
    | _ => none
  ofValue_toValue c := by simp [structFields, fieldOnce, requiredField, optionalField_toValue]

instance : Serialize ServiceSchema where
  toValue s := .object [("service_name", toValue s.serviceName), ("version", toValue s.version),
    ("input_schema", s.inputSchema), ("output_schema", s.outputSchema),
    ("state_schema", toValue s.stateSchema), ("capabilities", toValue s.capabilities),
    ("streaming_modes", toValue s.streamingModes), ("metadata", s.metadata)]

instance : Deserialize ServiceSchema where
  ofValue v := do
    match ← structFields ["service_name", "version", "input_schema", "output_schema", "state_schema",
      "capabilities", "streaming_modes", "metadata"] v with
    | [serviceName, version, inputSchema, outputSchema, stateSchema, capabilities, streamingModes,
        metadata] =>
      return { serviceName := ← requiredField serviceName, version := ← requiredField version,
               inputSchema := ← requiredField inputSchema, outputSchema := ← requiredField outputSchema,
               stateSchema := ← optionalField stateSchema, capabilities := ← requiredField capabilities,
               streamingModes := ← requiredField streamingModes, metadata := ← requiredField metadata }
    | _ => none

/-- The schema a server sends is the schema its client reads. -/
theorem ofValue_newSchema (serviceName version : String) :
    ofValue (toValue (ServiceSchema.new serviceName version)) =
      some (ServiceSchema.new serviceName version) := by
  simp [ServiceSchema.new, toValue, ofValue, structFields, fieldOnce, requiredField, optionalField,
    Value.asStr]

end XProtocol
