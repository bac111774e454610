import TemplateExpressions.Error

/-!
# Wording of errors

Message, code, advice and label of each failure. Names are set between double quotes as they are,
without escapes.
-/

set_option autoImplicit false

namespace TemplateExpressions

/-- A name between double quotes. -/
private def named (name : Text) : Text := '"' :: name ++ ['"']

namespace CompileError

/-- What is wrong. -/
def message (e : CompileError) : Text :=
  match e.cause with
  | .unknownType name => "unrecognized expression type ".toList ++ named name
  | .invalidVariable name => "invalid variable name ".toList ++ named name
  | .invalidInterpolation => "$ must be doubled or followed by a simple path".toList

/-- The name of the kind of error. -/
def code (e : CompileError) : Text :=
  match e.cause with
  | .unknownType _ => "tales::compile::unknown_type".toList
  | .invalidVariable _ => "tales::compile::invalid_name".toList
  | .invalidInterpolation => "tales::compile::interpolation".toList

/-- What to do about it. -/
def help (e : CompileError) : Text :=
  match e.cause with
  | .unknownType _ =>
    "register the type on the engine, or drop the prefix to use the default type".toList
  | .invalidVariable _ =>
    "a path must start with a letter followed by letters, digits or underscores".toList
  | .invalidInterpolation => "write $$ for a literal dollar sign".toList

/-- What to write under the stretch to blame. -/
def label (e : CompileError) : Text :=
  match e.cause with
  | .unknownType _ => "not a registered expression type".toList
  | .invalidVariable _ => "invalid base name".toList
  | .invalidInterpolation => "unexpected $".toList

end CompileError

/-- The kind of registration in words. -/
def RegistryKind.text : RegistryKind → Text
  | .expressionType => "expression type".toList
  | .baseName => "base name".toList
  | .functionNamespace => "function namespace".toList

namespace RegistrationError

/-- What is wrong. -/
def message : RegistrationError → Text
  | .invalidName kind name => "invalid ".toList ++ kind.text ++ " name ".toList ++ named name
  | .duplicate kind name =>
    "multiple registrations for ".toList ++ kind.text ++ ' ' :: named name

/-- The name of the kind of error. -/
def code : RegistrationError → Text
  | .invalidName _ _ => "tales::registration::invalid_name".toList
  | .duplicate _ _ => "tales::registration::duplicate".toList

end RegistrationError

namespace CursorError

/-- What is wrong. -/
def message : CursorError → Text
  | .noPosition => "no iteration position".toList
  | .unsized typeName => "a sequence of type ".toList ++ typeName ++ " has no length".toList

/-- The name of the kind of error. -/
def code : CursorError → Text
  | .noPosition => "tales::iterator::no_position".toList
  | .unsized _ => "tales::iterator::unsized_sequence".toList

/-- What to do about it. -/
def help? : CursorError → Option Text
  | .noPosition =>
    some "position queries are only available after the iterator has advanced".toList
  | .unsized _ => none

end CursorError

namespace ScopeError

/-- What is wrong. -/
def message : ScopeError → Text
  | .noOpenScope => "no open scope".toList

/-- The name of the kind of error. -/
def code : ScopeError → Text
  | .noOpenScope => "tales::scope::no_open_scope".toList

/-- What to do about it. -/
def help? : ScopeError → Option Text
  | .noOpenScope => some "begin_scope and end_scope calls must be balanced".toList

end ScopeError

namespace EvalError

/-- What is wrong. -/
def message : EvalError → Text
  | .undefined name => "undefined: ".toList ++ name
  | .nameNotFound name => "name ".toList ++ named name ++ " is not defined".toList
  | .attributeNotFound typeName name => typeName ++ " has no attribute ".toList ++ named name
  | .keyNotFound key => "key ".toList ++ named key ++ " not found".toList
  | .indexOutOfRange index length =>
    "index ".toList ++ Number.intText index ++ " out of range (length: ".toList ++
      Number.natText length ++ [')']
  | .typeMismatch message => "type mismatch: ".toList ++ message
  | .notTraversable typeName segment =>
    "cannot traverse ".toList ++ named segment ++ " on a value of type ".toList ++ typeName
  | .notIterable typeName =>
    "a value of type ".toList ++ typeName ++ " is not iterable".toList
  | .cursor error => error.message
  | .scope error => error.message
  | .contextDropped => "the evaluation context has been dropped".toList
  | .depthExceeded depth maxDepth =>
    "evaluation depth ".toList ++ Number.natText depth ++ " exceeds maximum of ".toList ++
      Number.natText maxDepth
  | .host message => message
  | .compile error => error.message

/-- The name of the kind of error. -/
def code : EvalError → Text
  | .undefined _ => "tales::eval::undefined".toList
  | .nameNotFound _ => "tales::eval::name_not_found".toList
  | .attributeNotFound _ _ => "tales::eval::attribute_not_found".toList
  | .keyNotFound _ => "tales::eval::key_not_found".toList
  | .indexOutOfRange _ _ => "tales::eval::index_out_of_range".toList
  | .typeMismatch _ => "tales::eval::type_mismatch".toList
  | .notTraversable _ _ => "tales::eval::not_traversable".toList
  | .notIterable _ => "tales::eval::not_iterable".toList
  | .cursor error => error.code
  | .scope error => error.code
  | .contextDropped => "tales::eval::context_dropped".toList
  | .depthExceeded _ _ => "tales::eval::depth_exceeded".toList
  | .host _ => "tales::eval::host".toList
  | .compile error => error.code

/-- What to do about it. -/
def help? : EvalError → Option Text
  | .cursor error => error.help?
  | .scope error => error.help?
  | .contextDropped =>
    some "deferred values and iterators cannot outlive the context that created them".toList
  | .depthExceeded _ _ =>
    some "raise ExecutionOptions::max_depth or break the nesting chain".toList
  | .compile error => some error.help
  | _ => none

end EvalError

/-- The places that are known, in the words of a note. -/
def ErrorInfo.location (info : ErrorInfo) : List Text :=
  let file := info.file.toList.map fun file => "in ".toList ++ file
  let line := info.position.line.toList.map fun line =>
    let column := (info.position.column.map fun column =>
      ", column ".toList ++ Number.natText column).getD []
    "at line ".toList ++ Number.natText line ++ column
  file ++ line

/-- The error and, after commas, the places that are known. -/
def ErrorInfo.message (info : ErrorInfo) : Text :=
  Text.joinWith ", ".toList (info.error.message :: info.location)

namespace Failure

/-- What is wrong. -/
def message : Failure → Text
  | .compilation error => error.message
  | .registration error => error.message
  | .evaluation info _ => info.message

/-- The name of the kind of failure. -/
def code : Failure → Text
  | .compilation error => error.code
  | .registration error => error.code
  | .evaluation _ _ => "tales::evaluation".toList

/-- What to do about it; a failed evaluation as such carries no advice. -/
def help? : Failure → Option Text
  | .compilation error => some error.help
  | .registration _ => none
  | .evaluation _ _ => none

end Failure
end TemplateExpressions
