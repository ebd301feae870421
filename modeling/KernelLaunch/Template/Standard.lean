import KernelLaunch.Host.Show

/-!
Built-in names of templates: functions, classes and constants. A template can show the text
of one. Every built-in counts as true, and none is a number or can be iterated over.
-/

namespace KernelLaunch.Template

/-- The built-in functions. -/
def standardFunctions : List String :=
  ["__build_class__", "__import__", "abs", "aiter", "all", "anext", "any", "ascii", "bin",
    "breakpoint", "callable", "chr", "compile", "delattr", "dir", "divmod", "eval", "exec",
    "format", "getattr", "globals", "hasattr", "hash", "hex", "id", "input", "isinstance",
    "issubclass", "iter", "len", "locals", "max", "min", "next", "oct", "open", "ord", "pow",
    "print", "repr", "round", "setattr", "sorted", "sum", "vars"]

/-- The built-in classes of values. -/
def standardClasses : List String :=
  ["bool", "bytearray", "bytes", "classmethod", "complex", "dict", "enumerate", "filter", "float",
    "frozenset", "int", "list", "map", "memoryview", "object", "property", "range", "reversed",
    "set", "slice", "staticmethod", "str", "super", "tuple", "type", "zip"]

/-- The built-in classes of exceptions. -/
def standardFailures : List String :=
  ["ArithmeticError", "AssertionError", "AttributeError", "BaseException", "BaseExceptionGroup",
    "BlockingIOError", "BrokenPipeError", "BufferError", "BytesWarning", "ChildProcessError",
    "ConnectionAbortedError", "ConnectionError", "ConnectionRefusedError", "ConnectionResetError",
    "DeprecationWarning", "EOFError", "EncodingWarning", "Exception", "ExceptionGroup",
    "FileExistsError", "FileNotFoundError", "FloatingPointError", "FutureWarning", "GeneratorExit",
    "ImportError", "ImportWarning", "IndentationError", "IndexError", "InterruptedError",
    "IsADirectoryError", "KeyError", "KeyboardInterrupt", "LookupError", "MemoryError",
    "ModuleNotFoundError", "NameError", "NotADirectoryError", "NotImplementedError", "OSError",
    "OverflowError", "PendingDeprecationWarning", "PermissionError", "ProcessLookupError",
    "RecursionError", "ReferenceError", "ResourceWarning", "RuntimeError", "RuntimeWarning",
    "StopAsyncIteration", "StopIteration", "SyntaxError", "SyntaxWarning", "SystemError",
    "SystemExit", "TabError", "TimeoutError", "TypeError", "UnboundLocalError",
    "UnicodeDecodeError", "UnicodeEncodeError", "UnicodeError", "UnicodeTranslateError",
    "UnicodeWarning", "UserWarning", "ValueError", "Warning", "ZeroDivisionError"]

/-- Other built-in names, with their texts. -/
def standardTexts : List (String × String) :=
  [("Ellipsis", "Ellipsis"), ("NotImplemented", "NotImplemented"),
    ("EnvironmentError", "<class 'OSError'>"), ("IOError", "<class 'OSError'>"),
    ("exit", "Use exit() or Ctrl-D (i.e. EOF) to exit"),
    ("quit", "Use quit() or Ctrl-D (i.e. EOF) to exit"),
    ("help", "Type help() for interactive help, or help(object) for help about object.")]

/-- The text of a built-in name. -/
def standardText? (name : String) : Option String :=
  if standardFunctions.contains name then some ("<built-in function " ++ name ++ ">")
  else if standardClasses.contains name || standardFailures.contains name then
    some ("<class " ++ Text.quoted name ++ ">")
  else standardTexts.lookup name

end KernelLaunch.Template
