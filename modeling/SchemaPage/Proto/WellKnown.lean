import SchemaPage.Proto.Symbol

/-!
# The well-known files

The files below `google/protobuf/` that every schema may import without having them.  They are
linked already: named types are full names, and their kinds are known.  They have no comments.

* `WellKnown.files`: all of them.
* `WellKnown.file?`: the one with a logical name.
-/

namespace SchemaPage
namespace Proto
namespace WellKnown

/-! ## Shorthand -/

/-- The full name of a type in the package of these files. -/
def full (name : String) : String := ".google.protobuf." ++ name

/-- A field of a scalar type. -/
def scalar (name : String) (number : Int) (s : Scalar) : FieldDescriptor :=
  { name, number, kind := some (.scalar s) }

/-- A field that holds a message. -/
def message (name : String) (number : Int) (type : String) : FieldDescriptor :=
  { name, number, kind := some .message, typeName := full type }

/-- A field that holds a constant of an enum. -/
def choice (name : String) (number : Int) (type : String) : FieldDescriptor :=
  { name, number, kind := some .enumeration, typeName := full type }

/-- The field, any number of times. -/
def many (f : FieldDescriptor) : FieldDescriptor := { f with label := .repeated }

/-- The field, exactly once. -/
def one (f : FieldDescriptor) : FieldDescriptor := { f with label := .required }

/-- The field inside the first group of its message. -/
def grouped (f : FieldDescriptor) : FieldDescriptor := { f with oneofIndex := some 0 }

/-- An enum with its constants. -/
def enumOf (name : String) (constants : List (String × Int)) : EnumDescriptor :=
  { name, constants := constants.map fun (name, number) => { name, number } }

/-- A file of the third dialect. -/
def file3 (name : String) (dependencies : List String) (messages : List MessageDescriptor)
    (enums : List EnumDescriptor) : FileDescriptor :=
  { name := "google/protobuf/" ++ name
    package := "google.protobuf"
    dialect := .proto3
    dependencies := dependencies.map fun path => ⟨"google/protobuf/" ++ path, false⟩
    messages, enums }

open Scalar (double float int32 int64 uint32 uint64 bool string bytes)

/-! ## Values -/

/-- A message of any type. -/
def anyFile : FileDescriptor :=
  file3 "any.proto" []
    [{ name := "Any", fields := [scalar "type_url" 1 string, scalar "value" 2 bytes] }] []

/-- A stretch of time. -/
def durationFile : FileDescriptor :=
  file3 "duration.proto" []
    [{ name := "Duration", fields := [scalar "seconds" 1 int64, scalar "nanos" 2 int32] }] []

/-- A message without fields. -/
def emptyFile : FileDescriptor := file3 "empty.proto" [] [{ name := "Empty" }] []

/-- A choice of fields. -/
def fieldMaskFile : FileDescriptor :=
  file3 "field_mask.proto" []
    [{ name := "FieldMask", fields := [many (scalar "paths" 1 string)] }] []

/-- The file that something comes from. -/
def sourceContextFile : FileDescriptor :=
  file3 "source_context.proto" []
    [{ name := "SourceContext", fields := [scalar "file_name" 1 string] }] []

/-- A point in time. -/
def timestampFile : FileDescriptor :=
  file3 "timestamp.proto" []
    [{ name := "Timestamp", fields := [scalar "seconds" 1 int64, scalar "nanos" 2 int32] }] []

/-- A message that holds one scalar. -/
def wrapper (name : String) (s : Scalar) : MessageDescriptor :=
  { name, fields := [scalar "value" 1 s] }

/-- Scalars as messages. -/
def wrappersFile : FileDescriptor :=
  file3 "wrappers.proto" []
    [wrapper "DoubleValue" double, wrapper "FloatValue" float, wrapper "Int64Value" int64,
      wrapper "UInt64Value" uint64, wrapper "Int32Value" int32, wrapper "UInt32Value" uint32,
      wrapper "BoolValue" bool, wrapper "StringValue" string, wrapper "BytesValue" bytes] []

/-- Values without a schema. -/
def structFile : FileDescriptor :=
  file3 "struct.proto" []
    [{ name := "Struct"
       fields := [many (message "fields" 1 "Struct.FieldsEntry")]
       nested :=
         [{ name := "FieldsEntry"
            fields := [scalar "key" 1 string, message "value" 2 "Value"]
            mapEntry := true }] },
      { name := "Value"
        fields :=
          [choice "null_value" 1 "NullValue", scalar "number_value" 2 double,
            scalar "string_value" 3 string, scalar "bool_value" 4 bool,
            message "struct_value" 5 "Struct", message "list_value" 6 "ListValue"].map grouped
        oneofs := [{ name := "kind" }] },
      { name := "ListValue", fields := [many (message "values" 1 "Value")] }]
    [enumOf "NullValue" [("NULL_VALUE", 0)]]

/-! ## Types and interfaces -/

/-- Descriptions of types. -/
def typeFile : FileDescriptor :=
  file3 "type.proto" ["any.proto", "source_context.proto"]
    [{ name := "Type"
       fields :=
         [scalar "name" 1 string, many (message "fields" 2 "Field"),
           many (scalar "oneofs" 3 string), many (message "options" 4 "Option"),
           message "source_context" 5 "SourceContext", choice "syntax" 6 "Syntax",
           scalar "edition" 7 string] },
      { name := "Field"
        fields :=
          [choice "kind" 1 "Field.Kind", choice "cardinality" 2 "Field.Cardinality",
            scalar "number" 3 int32, scalar "name" 4 string, scalar "type_url" 6 string,
            scalar "oneof_index" 7 int32, scalar "packed" 8 bool,
            many (message "options" 9 "Option"), scalar "json_name" 10 string,
            scalar "default_value" 11 string]
        enums :=
          [enumOf "Kind"
            [("TYPE_UNKNOWN", 0), ("TYPE_DOUBLE", 1), ("TYPE_FLOAT", 2), ("TYPE_INT64", 3),
              ("TYPE_UINT64", 4), ("TYPE_INT32", 5), ("TYPE_FIXED64", 6), ("TYPE_FIXED32", 7),
              ("TYPE_BOOL", 8), ("TYPE_STRING", 9), ("TYPE_GROUP", 10), ("TYPE_MESSAGE", 11),
              ("TYPE_BYTES", 12), ("TYPE_UINT32", 13), ("TYPE_ENUM", 14), ("TYPE_SFIXED32", 15),
              ("TYPE_SFIXED64", 16), ("TYPE_SINT32", 17), ("TYPE_SINT64", 18)],
            enumOf "Cardinality"
              [("CARDINALITY_UNKNOWN", 0), ("CARDINALITY_OPTIONAL", 1),
                ("CARDINALITY_REQUIRED", 2), ("CARDINALITY_REPEATED", 3)]] },
      { name := "Enum"
        fields :=
          [scalar "name" 1 string, many (message "enumvalue" 2 "EnumValue"),
            many (message "options" 3 "Option"), message "source_context" 4 "SourceContext",
            choice "syntax" 5 "Syntax", scalar "edition" 6 string] },
      { name := "EnumValue"
        fields :=
          [scalar "name" 1 string, scalar "number" 2 int32,
            many (message "options" 3 "Option")] },
      { name := "Option", fields := [scalar "name" 1 string, message "value" 2 "Any"] }]
    [enumOf "Syntax" [("SYNTAX_PROTO2", 0), ("SYNTAX_PROTO3", 1), ("SYNTAX_EDITIONS", 2)]]

/-- Descriptions of services. -/
def apiFile : FileDescriptor :=
  file3 "api.proto" ["source_context.proto", "type.proto"]
    [{ name := "Api"
       fields :=
         [scalar "name" 1 string, many (message "methods" 2 "Method"),
           many (message "options" 3 "Option"), scalar "version" 4 string,
           message "source_context" 5 "SourceContext", many (message "mixins" 6 "Mixin"),
           choice "syntax" 7 "Syntax"] },
      { name := "Method"
        fields :=
          [scalar "name" 1 string, scalar "request_type_url" 2 string,
            scalar "request_streaming" 3 bool, scalar "response_type_url" 4 string,
            scalar "response_streaming" 5 bool, many (message "options" 6 "Option"),
            choice "syntax" 7 "Syntax"] },
      { name := "Mixin", fields := [scalar "name" 1 string, scalar "root" 2 string] }] []

/-! ## Descriptors -/

/-- The numbers that the options of a declaration leave to extensions. -/
def optionRange : NumberRange := ⟨1000, 536870911⟩

/-- The message for the options of a kind of declaration. -/
def optionsMessage (name : String) (fields : List FieldDescriptor)
    (enums : List EnumDescriptor) : MessageDescriptor :=
  { name, enums
    fields := fields ++ [many (message "uninterpreted_option" 999 "UninterpretedOption")]
    extensionRanges := [⟨[optionRange], []⟩] }

/-- The messages that describe files. -/
def structureMessages : List MessageDescriptor :=
  [{ name := "FileDescriptorSet", fields := [many (message "file" 1 "FileDescriptorProto")]
     extensionRanges := [⟨[⟨536000000, 536000000⟩], []⟩] },
    { name := "FileDescriptorProto"
      fields :=
        [scalar "name" 1 string, scalar "package" 2 string, many (scalar "dependency" 3 string),
          many (scalar "public_dependency" 10 int32), many (scalar "weak_dependency" 11 int32),
          many (message "message_type" 4 "DescriptorProto"),
          many (message "enum_type" 5 "EnumDescriptorProto"),
          many (message "service" 6 "ServiceDescriptorProto"),
          many (message "extension" 7 "FieldDescriptorProto"),
          message "options" 8 "FileOptions", message "source_code_info" 9 "SourceCodeInfo",
          scalar "syntax" 12 string, choice "edition" 14 "Edition"] },
    { name := "DescriptorProto"
      fields :=
        [scalar "name" 1 string, many (message "field" 2 "FieldDescriptorProto"),
          many (message "extension" 6 "FieldDescriptorProto"),
          many (message "nested_type" 3 "DescriptorProto"),
          many (message "enum_type" 4 "EnumDescriptorProto"),
          many (message "extension_range" 5 "DescriptorProto.ExtensionRange"),
          many (message "oneof_decl" 8 "OneofDescriptorProto"),
          message "options" 7 "MessageOptions",
          many (message "reserved_range" 9 "DescriptorProto.ReservedRange"),
          many (scalar "reserved_name" 10 string)]
      nested :=
        [{ name := "ExtensionRange"
           fields :=
             [scalar "start" 1 int32, scalar "end" 2 int32,
               message "options" 3 "ExtensionRangeOptions"] },
          { name := "ReservedRange", fields := [scalar "start" 1 int32, scalar "end" 2 int32] }] },
    { name := "ExtensionRangeOptions"
      fields :=
        [many (message "uninterpreted_option" 999 "UninterpretedOption"),
          many (message "declaration" 2 "ExtensionRangeOptions.Declaration"),
          message "features" 50 "FeatureSet",
          choice "verification" 3 "ExtensionRangeOptions.VerificationState"]
      nested :=
        [{ name := "Declaration"
           fields :=
             [scalar "number" 1 int32, scalar "full_name" 2 string, scalar "type" 3 string,
               scalar "reserved" 5 bool, scalar "repeated" 6 bool]
           reservedRanges := [⟨4, 4⟩] }]
      enums := [enumOf "VerificationState" [("DECLARATION", 0), ("UNVERIFIED", 1)]]
      extensionRanges := [⟨[optionRange], []⟩] },
    { name := "FieldDescriptorProto"
      fields :=
        [scalar "name" 1 string, scalar "number" 3 int32,
          choice "label" 4 "FieldDescriptorProto.Label",
          choice "type" 5 "FieldDescriptorProto.Type", scalar "type_name" 6 string,
          scalar "extendee" 2 string, scalar "default_value" 7 string,
          scalar "oneof_index" 9 int32, scalar "json_name" 10 string,
          message "options" 8 "FieldOptions", scalar "proto3_optional" 17 bool]
      enums :=
        [enumOf "Type"
          [("TYPE_DOUBLE", 1), ("TYPE_FLOAT", 2), ("TYPE_INT64", 3), ("TYPE_UINT64", 4),
            ("TYPE_INT32", 5), ("TYPE_FIXED64", 6), ("TYPE_FIXED32", 7), ("TYPE_BOOL", 8),
            ("TYPE_STRING", 9), ("TYPE_GROUP", 10), ("TYPE_MESSAGE", 11), ("TYPE_BYTES", 12),
            ("TYPE_UINT32", 13), ("TYPE_ENUM", 14), ("TYPE_SFIXED32", 15),
            ("TYPE_SFIXED64", 16), ("TYPE_SINT32", 17), ("TYPE_SINT64", 18)],
          enumOf "Label"
            [("LABEL_OPTIONAL", 1), ("LABEL_REPEATED", 3), ("LABEL_REQUIRED", 2)]] },
    { name := "OneofDescriptorProto"
      fields := [scalar "name" 1 string, message "options" 2 "OneofOptions"] },
    { name := "EnumDescriptorProto"
      fields :=
        [scalar "name" 1 string, many (message "value" 2 "EnumValueDescriptorProto"),
          message "options" 3 "EnumOptions",
          many (message "reserved_range" 4 "EnumDescriptorProto.EnumReservedRange"),
          many (scalar "reserved_name" 5 string)]
      nested :=
        [{ name := "EnumReservedRange"
           fields := [scalar "start" 1 int32, scalar "end" 2 int32] }] },
    { name := "EnumValueDescriptorProto"
      fields :=
        [scalar "name" 1 string, scalar "number" 2 int32,
          message "options" 3 "EnumValueOptions"] },
    { name := "ServiceDescriptorProto"
      fields :=
        [scalar "name" 1 string, many (message "method" 2 "MethodDescriptorProto"),
          message "options" 3 "ServiceOptions"] },
    { name := "MethodDescriptorProto"
      fields :=
        [scalar "name" 1 string, scalar "input_type" 2 string, scalar "output_type" 3 string,
          message "options" 4 "MethodOptions", scalar "client_streaming" 5 bool,
          scalar "server_streaming" 6 bool] }]

/-- The messages for the options of declarations. -/
def optionsMessages : List MessageDescriptor :=
  [optionsMessage "FileOptions"
      [scalar "java_package" 1 string, scalar "java_outer_classname" 8 string,
        scalar "java_multiple_files" 10 bool, scalar "java_generate_equals_and_hash" 20 bool,
        scalar "java_string_check_utf8" 27 bool,
        choice "optimize_for" 9 "FileOptions.OptimizeMode", scalar "go_package" 11 string,
        scalar "cc_generic_services" 16 bool, scalar "java_generic_services" 17 bool,
        scalar "py_generic_services" 18 bool, scalar "php_generic_services" 42 bool,
        scalar "deprecated" 23 bool,
        scalar "cc_enable_arenas" 31 bool, scalar "objc_class_prefix" 36 string,
        scalar "csharp_namespace" 37 string, scalar "swift_prefix" 39 string,
        scalar "php_class_prefix" 40 string, scalar "php_namespace" 41 string,
        scalar "php_metadata_namespace" 44 string, scalar "ruby_package" 45 string,
        message "features" 50 "FeatureSet"]
      [enumOf "OptimizeMode" [("SPEED", 1), ("CODE_SIZE", 2), ("LITE_RUNTIME", 3)]],
    optionsMessage "MessageOptions"
      [scalar "message_set_wire_format" 1 bool,
        scalar "no_standard_descriptor_accessor" 2 bool, scalar "deprecated" 3 bool,
        scalar "map_entry" 7 bool, scalar "deprecated_legacy_json_field_conflicts" 11 bool,
        message "features" 12 "FeatureSet"] [],
    { optionsMessage "FieldOptions"
        [choice "ctype" 1 "FieldOptions.CType", scalar "packed" 2 bool,
          choice "jstype" 6 "FieldOptions.JSType", scalar "lazy" 5 bool,
          scalar "unverified_lazy" 15 bool, scalar "deprecated" 3 bool, scalar "weak" 10 bool,
          scalar "debug_redact" 16 bool, choice "retention" 17 "FieldOptions.OptionRetention",
          many (choice "targets" 19 "FieldOptions.OptionTargetType"),
          many (message "edition_defaults" 20 "FieldOptions.EditionDefault"),
          message "features" 21 "FeatureSet"]
        [enumOf "CType" [("STRING", 0), ("CORD", 1), ("STRING_PIECE", 2)],
          enumOf "JSType" [("JS_NORMAL", 0), ("JS_STRING", 1), ("JS_NUMBER", 2)],
          enumOf "OptionRetention"
            [("RETENTION_UNKNOWN", 0), ("RETENTION_RUNTIME", 1), ("RETENTION_SOURCE", 2)],
          enumOf "OptionTargetType"
            [("TARGET_TYPE_UNKNOWN", 0), ("TARGET_TYPE_FILE", 1),
              ("TARGET_TYPE_EXTENSION_RANGE", 2), ("TARGET_TYPE_MESSAGE", 3),
              ("TARGET_TYPE_FIELD", 4), ("TARGET_TYPE_ONEOF", 5), ("TARGET_TYPE_ENUM", 6),
              ("TARGET_TYPE_ENUM_ENTRY", 7), ("TARGET_TYPE_SERVICE", 8),
              ("TARGET_TYPE_METHOD", 9)]] with
      nested :=
        [{ name := "EditionDefault"
           fields := [choice "edition" 3 "Edition", scalar "value" 2 string] }] },
    optionsMessage "OneofOptions" [message "features" 1 "FeatureSet"] [],
    optionsMessage "EnumOptions"
      [scalar "allow_alias" 2 bool, scalar "deprecated" 3 bool,
        scalar "deprecated_legacy_json_field_conflicts" 6 bool,
        message "features" 7 "FeatureSet"] [],
    optionsMessage "EnumValueOptions"
      [scalar "deprecated" 1 bool, message "features" 2 "FeatureSet",
        scalar "debug_redact" 3 bool] [],
    optionsMessage "ServiceOptions"
      [message "features" 34 "FeatureSet", scalar "deprecated" 33 bool] [],
    optionsMessage "MethodOptions"
      [scalar "deprecated" 33 bool,
        choice "idempotency_level" 34 "MethodOptions.IdempotencyLevel",
        message "features" 35 "FeatureSet"]
      [enumOf "IdempotencyLevel"
        [("IDEMPOTENCY_UNKNOWN", 0), ("NO_SIDE_EFFECTS", 1), ("IDEMPOTENT", 2)]],
    { name := "UninterpretedOption"
      fields :=
        [many (message "name" 2 "UninterpretedOption.NamePart"),
          scalar "identifier_value" 3 string, scalar "positive_int_value" 4 uint64,
          scalar "negative_int_value" 5 int64, scalar "double_value" 6 double,
          scalar "string_value" 7 bytes, scalar "aggregate_value" 8 string]
      nested :=
        [{ name := "NamePart"
           fields :=
             [one (scalar "name_part" 1 string), one (scalar "is_extension" 2 bool)] }] }]

/-- The messages for the features of editions and for the places of declarations in a text. -/
def editionMessages : List MessageDescriptor :=
  [{ name := "FeatureSet"
     fields :=
       [choice "field_presence" 1 "FeatureSet.FieldPresence",
         choice "enum_type" 2 "FeatureSet.EnumType",
         choice "repeated_field_encoding" 3 "FeatureSet.RepeatedFieldEncoding",
         choice "utf8_validation" 4 "FeatureSet.Utf8Validation",
         choice "message_encoding" 5 "FeatureSet.MessageEncoding",
         choice "json_format" 6 "FeatureSet.JsonFormat"]
     enums :=
       [enumOf "FieldPresence"
         [("FIELD_PRESENCE_UNKNOWN", 0), ("EXPLICIT", 1), ("IMPLICIT", 2),
           ("LEGACY_REQUIRED", 3)],
         enumOf "EnumType" [("ENUM_TYPE_UNKNOWN", 0), ("OPEN", 1), ("CLOSED", 2)],
         enumOf "RepeatedFieldEncoding"
           [("REPEATED_FIELD_ENCODING_UNKNOWN", 0), ("PACKED", 1), ("EXPANDED", 2)],
         enumOf "Utf8Validation" [("UTF8_VALIDATION_UNKNOWN", 0), ("VERIFY", 2), ("NONE", 3)],
         enumOf "MessageEncoding"
           [("MESSAGE_ENCODING_UNKNOWN", 0), ("LENGTH_PREFIXED", 1), ("DELIMITED", 2)],
         enumOf "JsonFormat"
           [("JSON_FORMAT_UNKNOWN", 0), ("ALLOW", 1), ("LEGACY_BEST_EFFORT", 2)]]
     extensionRanges :=
       [⟨[⟨1000, 1000⟩], []⟩, ⟨[⟨1001, 1001⟩], []⟩, ⟨[⟨1002, 1002⟩], []⟩, ⟨[⟨9995, 9999⟩], []⟩,
         ⟨[⟨10000, 10000⟩], []⟩] },
    { name := "FeatureSetDefaults"
      fields :=
        [many (message "defaults" 1 "FeatureSetDefaults.FeatureSetEditionDefault"),
          choice "minimum_edition" 4 "Edition", choice "maximum_edition" 5 "Edition"]
      nested :=
        [{ name := "FeatureSetEditionDefault"
           fields := [choice "edition" 3 "Edition", message "features" 2 "FeatureSet"] }] },
    { name := "SourceCodeInfo"
      fields := [many (message "location" 1 "SourceCodeInfo.Location")]
      nested :=
        [{ name := "Location"
           fields :=
             [many (scalar "path" 1 int32), many (scalar "span" 2 int32),
               scalar "leading_comments" 3 string, scalar "trailing_comments" 4 string,
               many (scalar "leading_detached_comments" 6 string)] }]
      extensionRanges := [⟨[⟨536000000, 536000000⟩], []⟩] },
    { name := "GeneratedCodeInfo"
      fields := [many (message "annotation" 1 "GeneratedCodeInfo.Annotation")]
      nested :=
        [{ name := "Annotation"
           fields :=
             [many (scalar "path" 1 int32), scalar "source_file" 2 string,
               scalar "begin" 3 int32, scalar "end" 4 int32,
               choice "semantic" 5 "GeneratedCodeInfo.Annotation.Semantic"]
           enums := [enumOf "Semantic" [("NONE", 0), ("SET", 1), ("ALIAS", 2)]] }] }]

/-- The editions of the language. -/
def editionEnum : EnumDescriptor :=
  enumOf "Edition"
    [("EDITION_UNKNOWN", 0), ("EDITION_PROTO2", 998), ("EDITION_PROTO3", 999),
      ("EDITION_2023", 1000), ("EDITION_1_TEST_ONLY", 1), ("EDITION_2_TEST_ONLY", 2),
      ("EDITION_99997_TEST_ONLY", 99997), ("EDITION_99998_TEST_ONLY", 99998),
      ("EDITION_99999_TEST_ONLY", 99999)]

/-- Descriptions of files. -/
def descriptorFile : FileDescriptor :=
  { file3 "descriptor.proto" [] (structureMessages ++ optionsMessages ++ editionMessages)
      [editionEnum] with
    dialect := .proto2 }

/-- The symbols of the descriptions of files. -/
def descriptorSymbols : List Symbol := descriptorFile.symbols

/-! ## Plugins -/

/-- Requests to plugins and their responses. -/
def pluginFile : FileDescriptor :=
  { name := "google/protobuf/compiler/plugin.proto"
    package := "google.protobuf.compiler"
    dependencies := [⟨"google/protobuf/descriptor.proto", false⟩]
    messages :=
      [{ name := "Version"
         fields :=
           [scalar "major" 1 int32, scalar "minor" 2 int32, scalar "patch" 3 int32,
             scalar "suffix" 4 string] },
        { name := "CodeGeneratorRequest"
          fields :=
            [many (scalar "file_to_generate" 1 string), scalar "parameter" 2 string,
              many (message "proto_file" 15 "FileDescriptorProto"),
              many (message "source_file_descriptors" 17 "FileDescriptorProto"),
              message "compiler_version" 3 "compiler.Version"] },
        { name := "CodeGeneratorResponse"
          fields :=
            [scalar "error" 1 string, scalar "supported_features" 2 uint64,
              many (message "file" 15 "compiler.CodeGeneratorResponse.File")]
          nested :=
            [{ name := "File"
               fields :=
                 [scalar "name" 1 string, scalar "insertion_point" 2 string,
                   scalar "content" 15 string,
                   message "generated_code_info" 16 "GeneratedCodeInfo"] }]
          enums :=
            [enumOf "Feature"
              [("FEATURE_NONE", 0), ("FEATURE_PROTO3_OPTIONAL", 1),
                ("FEATURE_SUPPORTS_EDITIONS", 2)]] }] }

/-! ## All of them -/

/-- The well-known files. -/
def files : List FileDescriptor :=
  [anyFile, apiFile, descriptorFile, durationFile, emptyFile, fieldMaskFile, sourceContextFile,
    structFile, timestampFile, typeFile, wrappersFile, pluginFile]

/-- The well-known file with a logical name. -/
def file? (name : String) : Option FileDescriptor := files.find? (·.name == name)

theorem name_of_file? {name : String} {f : FileDescriptor} (h : file? name = some f) :
    f.name = name := by
  simpa using List.find?_some h

end WellKnown
end Proto
end SchemaPage
