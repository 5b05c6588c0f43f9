import NativeTyping.Library.ReturnRule
/-!
Modules of the standard library: the results of their functions and the types of
their constants.
-/

namespace NativeTyping

namespace Library

/-- The functions of a module. A module may have one rule for all the functions
that it does not list. -/
structure ModuleTable where
  functions : NameGroups ReturnRule
  otherwise : Option ReturnRule := none

def floats : Ty := .list .float

def moduleTables : NameGroups ModuleTable :=
  [(["math"], {
      functions :=
        [(["floor", "ceil", "trunc", "factorial", "gcd", "lcm", "comb", "perm", "isqrt"],
           .fixed .int),
         (["isnan", "isinf", "isfinite", "isclose"], .fixed .bool)]
      otherwise := some (.fixed .float) }),
   (["random"], {
      functions :=
        [(["random", "uniform", "gauss", "normalvariate", "triangular", "expovariate"],
           .fixed .float),
         (["randint", "randrange", "getrandbits"], .fixed .int),
         (["seed", "shuffle"], .fixed .none),
         (["choice"], .elementOfArg),
         (["sample", "choices"], .listOfElements)] }),
   (["json", "pickle"], {
      functions :=
        [(["dumps"], .fixed Ty.text),
         (["dump"], .fixed .none),
         (["loads", "load"], .fixed .unknown)] }),
   (["hashlib"], {
      functions :=
        [(["md5", "sha1", "sha224", "sha256", "sha384", "sha512", "blake2b", "blake2s", "new"],
           .fixed (.library .hashObject))] }),
   (["struct"], {
      functions :=
        [(["pack"], .fixed Ty.text),
         (["calcsize"], .fixed .int),
         (["unpack", "unpack_from"], .structUnpack)] }),
   (["socket"], {
      functions :=
        [(["socket", "create_connection"], .fixed (.library .socket)),
         (["gethostname", "gethostbyname", "getfqdn"], .fixed Ty.text)] }),
   (["os"], {
      functions :=
        [(["getcwd", "getenv", "getlogin"], .fixed Ty.text),
         (["listdir"], .fixed (.list Ty.text)),
         (["getpid", "getppid", "system", "cpu_count"], .fixed .int),
         (["remove", "unlink", "mkdir", "makedirs", "rmdir", "chdir", "rename", "putenv"],
           .fixed .none)] }),
   (["os.path"], {
      functions :=
        [(["exists", "isfile", "isdir", "isabs", "islink"], .fixed .bool),
         (["join", "basename", "dirname", "abspath", "realpath", "normpath", "expanduser"],
           .fixed Ty.text),
         (["getsize"], .fixed .int),
         (["getmtime", "getatime", "getctime"], .fixed .float),
         (["split", "splitext"], .fixed (.tuple [Ty.text, Ty.text]))] }),
   (["time"], {
      functions :=
        [(["time", "perf_counter", "monotonic", "process_time"], .fixed .float),
         (["time_ns", "perf_counter_ns", "monotonic_ns"], .fixed .int),
         (["sleep"], .fixed .none),
         (["strftime", "ctime", "asctime"], .fixed Ty.text)] }),
   (["numpy"], {
      functions :=
        [(["array", "asarray", "zeros", "ones", "empty", "full", "arange", "linspace",
           "zeros_like", "ones_like", "sqrt", "exp", "log", "log2", "log10", "sin", "cos", "tan",
           "abs", "absolute", "square", "power", "add", "subtract", "multiply", "divide",
           "maximum", "minimum", "clip", "sort", "cumsum", "cumprod", "concatenate", "reshape",
           "transpose", "matmul", "outer", "where", "unique", "flip", "round"], .fixed floats),
         (["sum", "mean", "std", "var", "median", "min", "max", "amin", "amax", "dot", "prod",
           "average", "percentile", "trace"], .fixed .float),
         (["argmax", "argmin", "count_nonzero", "size", "ndim"], .fixed .int),
         (["array_equal", "allclose", "any", "all", "isclose"], .fixed .bool)] }),
   (["numpy.linalg"], {
      functions :=
        [(["norm", "det", "matrix_rank", "cond"], .fixed .float),
         (["inv", "pinv", "solve", "eigvals"], .fixed floats)] }),
   (["numpy.random"], {
      functions :=
        [(["rand", "randn", "random", "uniform", "normal"], .fixed floats),
         (["randint"], .fixed (.list .int)),
         (["seed"], .fixed .none)] }),
   (["sqlite3"], { functions := [(["connect"], .fixed (.library .dbConnection))] }),
   (["pathlib"], { functions := [(["Path", "PurePath"], .fixed (.library .path))] }),
   (["re"], {
      functions :=
        [(["sub", "escape"], .fixed Ty.text),
         (["findall", "split"], .fixed (.list Ty.text)),
         (["match", "search", "fullmatch", "compile", "finditer"], .fixed .unknown)] }),
   (["zlib"], {
      functions :=
        [(["compress", "decompress"], .fixed Ty.text),
         (["crc32", "adler32"], .fixed .int)] }),
   (["base64"], { functions := [], otherwise := some (.fixed Ty.text) }),
   (["sys"], {
      functions :=
        [(["exit"], .fixed .none),
         (["getsizeof", "getrecursionlimit"], .fixed .int)] }),
   (["statistics"], {
      functions := [(["mode"], .elementOfArg)]
      otherwise := some (.fixed .float) }),
   (["copy"], { functions := [(["copy", "deepcopy"], .sameAsArg)] })]

def isKnownModule (name : String) : Bool :=
  (moduleTables.find? name).isSome

def moduleFunction? (source name : String) : Option ReturnRule :=
  (moduleTables.find? source).bind fun table => (table.functions.find? name).or table.otherwise

/-! ## Constants -/

def moduleConstants : NameGroups Ty :=
  [(["math.pi", "math.e", "math.tau", "math.inf", "math.nan", "numpy.pi", "numpy.e"], .float),
   (["sys.maxsize", "socket.AF_INET", "socket.AF_INET6", "socket.SOCK_STREAM",
     "socket.SOCK_DGRAM", "socket.SOL_SOCKET", "socket.SO_REUSEADDR"], .int),
   (["string.ascii_letters", "string.ascii_lowercase", "string.ascii_uppercase",
     "string.digits", "string.hexdigits", "string.punctuation", "string.whitespace"],
     .str .literal),
   (["os.sep", "os.name", "os.linesep", "sys.platform", "sys.version"], Ty.text),
   (["sys.argv", "sys.path"], .list Ty.text),
   (["os.environ"], .dict Ty.text Ty.text)]

def moduleConstant? (qualified : String) : Option Ty :=
  moduleConstants.find? qualified

def isImplicitModule (name : String) : Bool :=
  isKnownModule name || name = "string" || name = "sys" || name = "os"

end Library

end NativeTyping
