import ExperimentCharts.Error
import ExperimentCharts.Files.Path
import ExperimentCharts.Text.Quoted

namespace ExperimentCharts

/-- A format of pictures: its name, and the extensions of its files in small letters. -/
structure PictureFormat where
  name : String
  extensions : List String
  /-- Whether pictures can be written in the format. -/
  isWritable : Bool := false

/-- Why a picture cannot be saved at a path. -/
inductive SaveFault where
  | noExtension
  | unknownExtension (extension : String)
  | unwritable (format : PictureFormat)
  | file (error : FileError)

namespace PictureFormat

/-- The formats that are known. -/
def all : List PictureFormat :=
  [{ name := "Png", extensions := ["png"], isWritable := true },
   { name := "Jpeg", extensions := ["jpg", "jpeg"], isWritable := true },
   { name := "Bmp", extensions := ["bmp"], isWritable := true },
   { name := "Gif", extensions := ["gif"] },
   { name := "WebP", extensions := ["webp"] },
   { name := "Pnm", extensions := ["pbm", "pam", "ppm", "pgm"] },
   { name := "Tiff", extensions := ["tif", "tiff"] },
   { name := "Tga", extensions := ["tga"] },
   { name := "Dds", extensions := ["dds"] },
   { name := "Ico", extensions := ["ico"] },
   { name := "Hdr", extensions := ["hdr"] },
   { name := "OpenExr", extensions := ["exr"] },
   { name := "Farbfeld", extensions := ["ff", "farbfeld"] },
   { name := "Avif", extensions := ["avif"] },
   { name := "Qoi", extensions := ["qoi"] }]

/-- The format of a path, which its extension tells in small or capital letters. -/
def ofPath (path : String) : Except SaveFault PictureFormat :=
  match Path.extension? path with
  | none => .error .noExtension
  | some extension =>
    match all.find? fun format => format.extensions.contains (extension.map Char.toLower) with
    | some format => .ok format
    | none => .error (.unknownExtension extension)

end PictureFormat

/-- The kind of an error of the file system, in the wording for pictures. -/
def FileError.kind : FileError → String
  | .notFound => "NotFound"
  | .notDirectory => "NotADirectory"
  | .isDirectory => "IsADirectory"
  | .noSpace => "StorageFull"
  | .nameTooLong => "InvalidFilename"
  | .permissionDenied | .notPermitted => "PermissionDenied"
  | .readOnlySystem => "ReadOnlyFilesystem"
  | .nulInPath => "InvalidInput"

namespace SaveFault

/-- The format that is at fault and the one that was asked for. -/
def unsupported (format asked : String) : String :=
  "Unsupported(UnsupportedError \x7b format: " ++ format ++ ", kind: Format(" ++ asked ++ ") \x7d)"

/-- The cause of a fault. -/
def detail : SaveFault → String
  | .noExtension => unsupported "Unknown" "Unknown"
  | .unknownExtension extension =>
    let hint := "PathExtension(" ++ Text.quote extension ++ ")"
    unsupported hint hint
  | .unwritable format => unsupported "Unknown" ("Name(" ++ Text.quote format.name ++ ")")
  | .file error =>
    let source := match error.code? with
      | some code => s!"Os \x7b code: {code}, "
      | none => "Error \x7b "
    s!"IoError({source}kind: {error.kind}, message: " ++ Text.quote error.description ++ " \x7d)"

def message (fault : SaveFault) : String :=
  s!"backend error: Drawing backend error: ImageError({fault.detail})"

end SaveFault

end ExperimentCharts
