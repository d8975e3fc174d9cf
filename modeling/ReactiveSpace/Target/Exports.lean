import ReactiveSpace.Decimal.Style
import ReactiveSpace.Space.Surface
import ReactiveSpace.Target.Writer

/-!
# Exports of a unit

A unit is loaded as a shared library. Its source ends with a table of entry points that the host
calls with pointers and texts: each of them checks its pointers, stops failures of the document at
the boundary, and answers a status or a text. Only the name of the unit and the list of its tests
differ from one unit to the next.
-/

namespace ReactiveSpace.Target

/-- The version of the table of entry points. -/
def abiVersion : Nat := 1

/-- The name under which the table of entry points is exported. -/
def entrySymbol : String := "livedoc_unit_vtable"

/-- An entry point, by the rest of its name and signature. -/
def entryPoint (signature : String) (body : List Code) : Code :=
  .nest ("unsafe extern \"C\" fn __glue_" ++ signature) body

/-- The banner of the exports and what they use. -/
def exportHeader (unitName : String) : List Code :=
  [.line "// ----------------------------------------------------------------------------",
    .line ("// C-ABI surface of unit '" ++ unitName ++ "'"),
    .line "// ----------------------------------------------------------------------------",
    .blank,
    .line "use std::ffi::\x7bc_char, c_void, CStr, CString\x7d;",
    .line "use std::panic::\x7bcatch_unwind, AssertUnwindSafe\x7d;",
    .line "use std::ptr::null_mut;"]

/-- The types of the monitor and of the table of entry points. -/
def vtableType : List Code :=
  [.line "#[repr(C)]",
    .line "#[derive(Clone, Copy)]",
    .nest "pub struct LivedocMonitor"
      [.line "pub context: *mut c_void,",
        .line "pub on_patch: Option<unsafe extern \"C\" fn(*mut c_void, *const c_char)>,"],
    .blank,
    .line "unsafe impl Send for LivedocMonitor \x7b\x7d",
    .line "unsafe impl Sync for LivedocMonitor \x7b\x7d",
    .blank,
    .line "#[repr(C)]",
    .nest "pub struct UnitVTable"
      [.line "pub abi_version: u32,",
        .line "pub construct: unsafe extern \"C\" fn(LivedocMonitor) -> *mut c_void,",
        .line "pub destroy: unsafe extern \"C\" fn(*mut c_void),",
        .line "pub can_create: unsafe extern \"C\" fn(*const c_char) -> i32,",
        .line "pub can_invent: unsafe extern \"C\" fn(*const c_char) -> i32,",
        .line "pub can_send_while_disconnected: unsafe extern \"C\" fn(*const c_char) -> i32,",
        .line "pub config: unsafe extern \"C\" fn() -> *mut c_char,",
        .line "pub services: unsafe extern \"C\" fn() -> *mut c_char,",
        .line "pub generic_clients: unsafe extern \"C\" fn() -> *mut c_char,",
        .line "pub get_tests: unsafe extern \"C\" fn() -> *mut c_char,",
        .line "pub transact_construct:",
        .line ("    unsafe extern \"C\" fn(*mut c_void, *const c_char, *const c_char) -> " ++
          "*mut c_char,"),
        .line ("pub late_bind: " ++
          "unsafe extern \"C\" fn(*mut c_void, *const c_char, *const c_char) -> i32,"),
        .line "pub run_test: unsafe extern \"C\" fn(*mut c_void, *const c_char) -> *mut c_char,",
        .line "pub free_string: unsafe extern \"C\" fn(*mut c_char),"]]

/-- The exported table of entry points. -/
def vtable : List Code :=
  [.line "#[allow(non_upper_case_globals)]",
    .line "#[no_mangle]",
    .block ("pub static " ++ entrySymbol ++ ": UnitVTable = UnitVTable")
      [.line ("abi_version: " ++ Decimal.digitText abiVersion ++ ","),
        .line "construct: __glue_construct,",
        .line "destroy: __glue_destroy,",
        .line "can_create: __glue_can_create,",
        .line "can_invent: __glue_can_invent,",
        .line "can_send_while_disconnected: __glue_can_send_while_disconnected,",
        .line "config: __glue_config,",
        .line "services: __glue_services,",
        .line "generic_clients: __glue_generic_clients,",
        .line "get_tests: __glue_get_tests,",
        .line "transact_construct: __glue_transact_construct,",
        .line "late_bind: __glue_late_bind,",
        .line "run_test: __glue_run_test,",
        .line "free_string: __glue_free_string,"] ";"]

/-- The functions that pass texts and predicates over the boundary. -/
def exportHelpers : List Code :=
  [.nest "unsafe fn __glue_str<'a>(ptr: *const c_char) -> Option<&'a str>"
      [.nest "if ptr.is_null()"
          [.line "return None;"],
        .line "CStr::from_ptr(ptr).to_str().ok()"],
    .blank,
    .nest "fn __glue_out(value: &str) -> *mut c_char"
      [.line "CString::new(value).map_or(null_mut(), CString::into_raw)"],
    .blank,
    .nest ("unsafe fn __glue_predicate(context: *const c_char, " ++
        "predicate: fn(&RequestContext) -> bool) -> i32")
      [.block "let Some(raw) = __glue_str(context) else"
          [.line "return -1;"] ";",
        .nest "match catch_unwind(|| RequestContext::from_json(raw).map(|ctx| predicate(&ctx)))"
          [.line "Ok(Some(true)) => 1,",
            .line "Ok(Some(false)) => 0,",
            .line "_ => -1,"]]]

/-- The entry points that build and destroy a document. -/
def lifetimeExports : List Code :=
  [entryPoint "construct(monitor: LivedocMonitor) -> *mut c_void"
      [.block "let built = catch_unwind(move ||"
          [.block "let sink = MonitorSink::new(move |patch: &str|"
              [.nest "if let (Some(on_patch), Ok(patch)) = (monitor.on_patch, CString::new(patch))"
                  [.line "unsafe \x7b on_patch(monitor.context, patch.as_ptr()) \x7d;"]] ");",
            .line ("Box::new(" ++ Structure.rootName ++ "::new(sink))")] ");",
        .nest "match built"
          [.line "Ok(document) => Box::into_raw(document).cast(),",
            .line "Err(_) => null_mut(),"]],
    .blank,
    entryPoint "destroy(document: *mut c_void)"
      [.nest "if !document.is_null()"
          [.line ("drop(Box::from_raw(document.cast::<" ++ Structure.rootName ++ ">()));")]]]

/-- The entry points of the static predicates. -/
def predicateExports : List Code :=
  [entryPoint "can_create(context: *const c_char) -> i32"
      [.line ("__glue_predicate(context, " ++ Structure.rootName ++ "::__can_create)")],
    .blank,
    entryPoint "can_invent(context: *const c_char) -> i32"
      [.line ("__glue_predicate(context, " ++ Structure.rootName ++ "::__can_invent)")],
    .blank,
    entryPoint "can_send_while_disconnected(context: *const c_char) -> i32"
      [.line ("__glue_predicate(context, " ++ Structure.rootName ++
          "::__can_send_while_disconnected)")]]

/-- The entry points of the static texts. -/
def staticExports (testsLiteral : String) : List Code :=
  [entryPoint "config() -> *mut c_char"
      [.line ("__glue_out(" ++ Structure.rootName ++ "::__config())")],
    .blank,
    entryPoint "services() -> *mut c_char"
      [.line ("__glue_out(" ++ Structure.rootName ++ "::__services())")],
    .blank,
    entryPoint "generic_clients() -> *mut c_char"
      [.line ("__glue_out(" ++ Structure.rootName ++ "::__generic_clients())")],
    .blank,
    entryPoint "get_tests() -> *mut c_char"
      [.line ("__glue_out(" ++ testsLiteral ++ ")")]]

/-- The entry points of a document: construct, bind, test, and release a text. -/
def documentExports : List Code :=
  [.line "unsafe extern \"C\" fn __glue_transact_construct(",
    .line "    document: *mut c_void,",
    .line "    who: *const c_char,",
    .line "    arg: *const c_char,",
    .nest ") -> *mut c_char"
      [.nest "if document.is_null()"
          [.line "return null_mut();"],
        .line ("let document = &mut *document.cast::<" ++ Structure.rootName ++ ">();"),
        .block "let (Some(who), Some(arg)) = (__glue_str(who), __glue_str(arg)) else"
          [.line "return null_mut();"] ";",
        .block "let Some(who) = NtPrincipal::from_json(who) else"
          [.line "return null_mut();"] ";",
        .nest "match catch_unwind(AssertUnwindSafe(|| document.__transact_construct(&who, arg)))"
          [.line "Ok(patch) => __glue_out(&patch),",
            .line "Err(_) => null_mut(),"]],
    .blank,
    .line "unsafe extern \"C\" fn __glue_late_bind(",
    .line "    document: *mut c_void,",
    .line "    space: *const c_char,",
    .line "    key: *const c_char,",
    .nest ") -> i32"
      [.nest "if document.is_null()"
          [.line "return -1;"],
        .line ("let document = &mut *document.cast::<" ++ Structure.rootName ++ ">();"),
        .nest "match (__glue_str(space), __glue_str(key))"
          [.nest "(Some(space), Some(key)) =>"
              [.line "document.__late_bind(space, key);",
                .line "0"],
            .line "_ => -1,"]],
    .blank,
    entryPoint "run_test(document: *mut c_void, name: *const c_char) -> *mut c_char"
      [.nest "if document.is_null()"
          [.line "return null_mut();"],
        .line ("let document = &mut *document.cast::<" ++ Structure.rootName ++ ">();"),
        .block "let Some(name) = __glue_str(name) else"
          [.line "return null_mut();"] ";",
        .block "let outcome = catch_unwind(AssertUnwindSafe(||"
          [.line "let mut report = TestReport::new(name);",
            .line "let known = document.__run_test(&mut report, name);",
            .line "(known, report)"] "));",
        .nest "match outcome"
          [.line "Ok((true, report)) => __glue_out(&report.to_json()),",
            .line "_ => null_mut(),"]],
    .blank,
    entryPoint "free_string(value: *mut c_char)"
      [.nest "if !value.is_null()"
          [.line "drop(CString::from_raw(value));"]]]

/-- The exports of the unit of the given name. -/
def exports (unitName : String) (surface : Surface) : List Code :=
  [.blank] ++ exportHeader unitName ++ [.blank] ++ vtableType ++ [.blank] ++ vtable ++ [.blank] ++
    exportHelpers ++ [.blank] ++ lifetimeExports ++ [.blank] ++ predicateExports ++ [.blank] ++
    staticExports (Text.quote surface.testsJson.compact) ++ [.blank] ++ documentExports

end ReactiveSpace.Target
