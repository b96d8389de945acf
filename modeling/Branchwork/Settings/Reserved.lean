import Branchwork.Settings.Basic

/-!
# Reserved names

Some names never stand for options, even if options are given under them: the operations on
settings, and what settings know about themselves. An operation is described by a text. What
settings know is a value, such as the further options or the names that were given.
-/

namespace Branchwork.Settings

/-- The text that stands for the kind of record that settings are. -/
def kindText : String := "<class 'treeflow.config.RunConfig'>"

/-- What settings are for, in the words of their documentation. -/
def documentation : String :=
  "\n    Options for a single experiment run.\n\n" ++
  "    Built once per run and passed to every unit that needs it. Experiment\n" ++
  "    flags that don't match a known field are kept as extra attributes so\n" ++
  "    stages can read them.\n    "

/-- The names of operations on settings. -/
def ownOperations : List String := ["resolve_path", "get_option", "with_flags"]

/-- The names of operations on records of any kind. -/
def recordOperations : List String :=
  ["copy", "dict", "json", "model_copy", "model_dump", "model_dump_json", "model_post_init",
    "__copy__", "__deepcopy__", "__delattr__", "__eq__", "__getattr__", "__getstate__", "__init__",
    "__iter__", "__replace__", "__repr__", "__repr_args__", "__setattr__", "__setstate__",
    "__str__", "_calculate_keys", "_copy_and_set_values", "_iter", "_setattr_handler"]

/-- The names of operations that belong to a kind of record as a whole. -/
def kindOperations : List String :=
  ["construct", "from_orm", "parse_file", "parse_obj", "parse_raw", "schema", "schema_json",
    "update_forward_refs", "validate", "model_construct", "model_json_schema",
    "model_parametrized_name", "model_rebuild", "model_validate", "model_validate_json",
    "model_validate_strings", "__class_getitem__", "__get_pydantic_core_schema__",
    "__get_pydantic_json_schema__", "__pydantic_init_subclass__", "_get_value"]

/-- The names of operations that show a record. -/
def showingOperations : List String :=
  ["__pretty__", "__repr_name__", "__repr_recursion__", "__repr_str__", "__rich_repr__"]

/-- The names of parts of a record that have no text of their own. -/
def hiddenParts : List String :=
  ["__dir__", "__format__", "__ge__", "__getattribute__", "__gt__", "__init_subclass__", "__le__",
    "__lt__", "__ne__", "__new__", "__reduce__", "__reduce_ex__", "__sizeof__", "__subclasshook__",
    "__pydantic_core_schema__", "__pydantic_decorators__", "__pydantic_serializer__",
    "__pydantic_validator__", "_abc_impl"]

/-- The kinds of the seven options as texts. -/
def fieldKinds : List (String × String) :=
  let path := "<class 'pathlib.Path'>"
  let text := "<class 'str'>"
  [("work_dir", path), ("chromium", "typing.Optional[str]"), ("save_browser", text),
    ("python", text), ("telemetry_dir", path), ("telemetry_timeout", "<class 'float'>"),
    ("template_dir", path)]

/-- The rules of the seven options as texts. -/
def fieldRules : List (String × String) :=
  let rule := fun (kind how : String) => s!"annotation={kind} required=False default{how}"
  let computed := "_factory=<lambda>"
  [("work_dir", rule "Path" "_factory=method"),
    ("chromium", rule "Union[str, NoneType]" computed), ("save_browser", rule "str" computed),
    ("python", rule "str" computed), ("telemetry_dir", rule "Path" computed),
    ("telemetry_timeout", rule "float" "=300.0"), ("template_dir", rule "Path" computed)]

/-- A mapping with texts as keys. -/
def named {α : Type} (toValue : α → Value) (entries : List (String × α)) : Value :=
  .map (entries.map fun (name, v) => (.text name, toValue v))

/-- What settings know about themselves. Several names may stand for one thing. -/
def knowledge (s : Settings) : List (List String × Value) :=
  [(["model_config"], named id [("extra", .text "allow"), ("frozen", .bool true)]),
    (["model_extra", "__pydantic_extra__"], named id s.extras),
    (["model_fields_set", "__pydantic_fields_set__", "__fields_set__"],
      .set (s.given.map .text)),
    (["model_computed_fields", "__pydantic_computed_fields__", "__private_attributes__",
      "__pydantic_setattr_handlers__"], .map []),
    (["model_fields", "__pydantic_fields__"], named .text fieldRules),
    (["__annotations__"], named .text fieldKinds),
    (["__dict__"], named id s.fields),
    (["__doc__"], .text documentation),
    (["__module__"], .text "treeflow.config"),
    (["__class__"], .text kindText),
    (["__slots__"], .tuple (["__dict__", "__pydantic_fields_set__", "__pydantic_extra__",
      "__pydantic_private__"].map .text)),
    (["__pydantic_complete__"], .bool true),
    (["__pydantic_custom_init__", "__pydantic_root_model__"], .bool false),
    (["__pydantic_generic_metadata__"],
      named id [("origin", .null), ("args", .tuple []), ("parameters", .tuple [])]),
    (["__class_vars__"], .set []),
    (["__abstractmethods__"], .text "frozenset()"),
    (["__pydantic_parent_namespace__", "__pydantic_post_init__", "__pydantic_private__"], .null)]

/-- What describes an operation on settings: a text with the settings in it. If a further option is
overlong there is no such text, and the further options stand for it, which are as little to be written. -/
def operationOn (s : Settings) (operation : String) : Value :=
  let further := named id s.extras
  if further.isOverlong then further else .text s!"<bound method {operation} of {s.display}>"

/-- What stands under a reserved name. -/
def reserved? (s : Settings) (name : String) : Option Value :=
  if ownOperations.contains name then some (s.operationOn s!"RunConfig.{name}")
  else if recordOperations.contains name then some (s.operationOn s!"BaseModel.{name}")
  else if showingOperations.contains name then some (s.operationOn s!"Representation.{name}")
  else if kindOperations.contains name then
    some (.text s!"<bound method BaseModel.{name} of {kindText}>")
  else if name = "__hash__" then some (s.operationOn "make_hash_func.<locals>.hash_func")
  else if hiddenParts.contains name then some (.text s!"<{name}>")
  else (s.knowledge.find? (·.1.contains name)).map (·.2)

/-- The value under a name: what is reserved under it, or else the option, if there is one. -/
def option? (s : Settings) (name : String) : Option Value :=
  (s.reserved? name).orElse fun _ => s.dump.lookup name

end Branchwork.Settings
