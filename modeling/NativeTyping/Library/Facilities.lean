import NativeTyping.Library.ReturnRule
/-!
Methods and attributes of the values that the runtime serves.
-/

namespace NativeTyping

namespace Facility

def methods : Facility → NameGroups Ty
  | .file =>
      [(["read", "readline"], Ty.text),
       (["readlines"], .list Ty.text),
       (["write", "tell", "seek", "fileno"], .int),
       (["close", "flush", "writelines"], .none),
       (["__enter__"], .library .file)]
  | .hashObject =>
      [(["hexdigest", "digest"], Ty.text),
       (["update"], .none),
       (["copy"], .library .hashObject)]
  | .path =>
      [(["exists", "is_file", "is_dir", "is_absolute"], .bool),
       (["read_text", "read_bytes", "as_posix"], Ty.text),
       (["write_text", "write_bytes"], .int),
       (["mkdir", "unlink", "touch", "rmdir"], .none),
       (["joinpath", "resolve", "absolute", "with_suffix", "with_name"], .library .path),
       (["iterdir", "glob", "rglob"], .list (.library .path)),
       (["open"], .library .file)]
  | .socket =>
      [(["recv"], Ty.text),
       (["send", "sendall", "fileno"], .int),
       (["accept"], .tuple [.library .socket, .tuple [Ty.text, .int]]),
       (["connect", "bind", "listen", "close", "settimeout", "setsockopt"], .none)]
  | .dbConnection =>
      [(["cursor", "execute"], .library .dbCursor),
       (["commit", "close", "rollback"], .none)]
  | .dbCursor =>
      [(["execute", "executemany"], .library .dbCursor),
       (["fetchone"], .library .dbRow),
       (["fetchall", "fetchmany"], .list (.library .dbRow)),
       (["close"], .none)]
  | .dbRow => []
  | .exception name => [(["with_traceback"], .library (.exception name))]

def method? (facility : Facility) (name : String) : Option Ty :=
  facility.methods.find? name

def attributes : Facility → NameGroups Ty
  | .file =>
      [(["name", "mode"], Ty.text),
       (["closed"], .bool)]
  | .path =>
      [(["name", "stem", "suffix"], Ty.text),
       (["parent"], .library .path),
       (["parts"], .list Ty.text)]
  | .hashObject =>
      [(["name"], Ty.text),
       (["digest_size", "block_size"], .int)]
  | .dbCursor => [(["rowcount", "lastrowid"], .int)]
  | .exception _ => [(["args"], .list .unknown)]
  | _ => []

def attribute? (facility : Facility) (name : String) : Option Ty :=
  facility.attributes.find? name

end Facility

end NativeTyping
