import DiagramShare.Http.Headers
import DiagramShare.Text.Split

/-!
Media types of files by the ends of their names, without regard to case.
-/
namespace DiagramShare.Http.FileType

open DiagramShare.Text

def table : List (String × List String) := [
  ("text/plain", ["txt", "text", "log", "conf", "def", "list", "in", "asc", "asm", "bas", "c",
    "cc", "cod", "cpp", "cs", "cxx", "h", "hpp", "hxx", "idl", "inc", "inl", "ipproj", "map",
    "py", "sln", "sol", "sor", "srf", "vb", "vcproj"]),
  ("text/html", ["html", "htm", "hxt", "shtml"]),
  ("text/css", ["css", "less"]),
  ("text/csv", ["csv"]),
  ("text/markdown", ["md", "markdown"]),
  ("text/javascript", ["js", "mjs"]),
  ("text/jscript", ["jsx"]),
  ("text/xml", ["xml", "xsd", "xsl", "xslt", "dtd", "disco", "mno", "vml", "wsdl", "xsf", "xrm-ms"]),
  ("text/x-yaml", ["yaml", "yml"]),
  ("text/x-toml", ["toml"]),
  ("text/x-rust", ["rs"]),
  ("text/calendar", ["ics", "ifb"]),
  ("text/x-vcard", ["vcf"]),
  ("text/tab-separated-values", ["tsv"]),
  ("text/vnd.graphviz", ["gv"]),
  ("text/x-component", ["htc"]),
  ("text/vbscript", ["vbs"]),
  ("text/h323", ["323"]),
  ("text/iuls", ["uls"]),
  ("text/richtext", ["rtx"]),
  ("text/scriptlet", ["sct", "wsc"]),
  ("text/sgml", ["sgml", "sgm"]),
  ("text/troff", ["t", "tr", "roff", "man", "me", "ms"]),
  ("text/turtle", ["ttl"]),
  ("text/uri-list", ["uri", "uris", "urls"]),
  ("text/vtt", ["vtt"]),
  ("text/webviewhtml", ["htt"]),
  ("text/x-html-insertion", ["qht", "qhtm"]),
  ("image/svg+xml", ["svg", "svgz"]),
  ("image/png", ["png", "pnz"]),
  ("image/jpeg", ["jpg", "jpeg", "jpe"]),
  ("image/pjpeg", ["jfif"]),
  ("image/gif", ["gif"]),
  ("image/webp", ["webp"]),
  ("image/avif", ["avif"]),
  ("image/bmp", ["bmp", "dib"]),
  ("image/x-icon", ["ico"]),
  ("image/tiff", ["tif", "tiff"]),
  ("image/heic", ["heic"]),
  ("image/heif", ["heif"]),
  ("image/ief", ["ief"]),
  ("image/jxl", ["jxl"]),
  ("image/ktx", ["ktx"]),
  ("image/pict", ["pct", "pic", "pict"]),
  ("image/vnd.djvu", ["djvu", "djv"]),
  ("image/vnd.dxf", ["dxf"]),
  ("image/vnd.dwg", ["dwg"]),
  ("image/vnd.wap.wbmp", ["wbmp"]),
  ("image/x-3ds", ["3ds"]),
  ("image/x-cmx", ["cmx"]),
  ("image/x-jg", ["art"]),
  ("image/x-portable-anymap", ["pnm"]),
  ("image/x-portable-bitmap", ["pbm"]),
  ("image/x-portable-graymap", ["pgm"]),
  ("image/x-portable-pixmap", ["ppm"]),
  ("image/x-quicktime", ["qti", "qtif"]),
  ("image/x-rgb", ["rgb"]),
  ("image/x-xbitmap", ["xbm"]),
  ("image/x-xpixmap", ["xpm"]),
  ("image/x-xwindowdump", ["xwd"]),
  ("application/pdf", ["pdf"]),
  ("application/json", ["json"]),
  ("application/json5", ["json5"]),
  ("application/ld+json", ["jsonld"]),
  ("application/manifest+json", ["webmanifest"]),
  ("application/xhtml+xml", ["xhtml", "xht"]),
  ("application/atom+xml", ["atom"]),
  ("application/rss+xml", ["rss"]),
  ("application/xml", ["addin", "config", "coverage", "datasource", "dgml", "filters", "generictest",
    "hxa", "hxc", "hxe", "hxf", "hxk", "hxv", "loadtest", "master", "orderedtest", "psess",
    "rdlc", "resx", "rng", "settings", "snippet", "svc", "testsettings", "user", "vcxproj",
    "vscontent", "vsmdi", "vssettings", "vstemplate", "wiq", "xmta"]),
  ("application/wasm", ["wasm"]),
  ("application/zip", ["zip"]),
  ("application/gzip", ["gz"]),
  ("application/x-tar", ["tar"]),
  ("application/x-compressed", ["tgz"]),
  ("application/x-bzip", ["bz"]),
  ("application/x-bzip2", ["bz2", "boz"]),
  ("application/x-7z-compressed", ["7z"]),
  ("application/x-rar-compressed", ["rar"]),
  ("application/x-xz", ["xz"]),
  ("application/java-archive", ["jar"]),
  ("application/x-java-applet", ["class"]),
  ("application/vnd.android.package-archive", ["apk"]),
  ("application/octet-stream", ["bin", "exe", "iso", "dmg", "java", "aaf", "aca", "afm", "asd",
    "asi", "cab", "chm", "cur", "deploy", "dsp", "dwp", "emz", "fla", "hhk", "hhp", "inf",
    "jck", "jcz", "lpk", "lzh", "mdp", "mix", "msi", "mso", "ocx", "pcx", "pcz", "pfb", "pfm",
    "prm", "prx", "psd", "psm", "psp", "qxd", "sea", "smi", "snp", "thn", "toc", "u32", "xsn",
    "xtp"]),
  ("application/x-msdownload", ["dll"]),
  ("application/postscript", ["ps", "eps", "ai"]),
  ("application/rtf", ["rtf"]),
  ("application/sql", ["sql"]),
  ("application/x-sh", ["sh"]),
  ("application/x-csh", ["csh"]),
  ("application/x-shar", ["shar"]),
  ("application/x-tcl", ["tcl"]),
  ("application/x-tex", ["tex"]),
  ("application/x-latex", ["latex"]),
  ("application/x-texinfo", ["texi", "texinfo"]),
  ("application/x-dvi", ["dvi"]),
  ("application/x-sv4cpio", ["sv4cpio"]),
  ("application/x-cpio", ["cpio"]),
  ("application/x-gtar", ["gtar"]),
  ("application/x-hdf", ["hdf"]),
  ("application/x-shockwave-flash", ["swf"]),
  ("application/x-silverlight-app", ["xap"]),
  ("application/x-bittorrent", ["torrent"]),
  ("application/x-x509-ca-cert", ["cer", "crt", "der", "pem"]),
  ("application/x-pkcs12", ["p12", "pfx"]),
  ("application/pkcs10", ["p10"]),
  ("application/pkcs7-mime", ["p7m", "p7c"]),
  ("application/pkcs7-signature", ["p7s"]),
  ("application/pkix-crl", ["crl"]),
  ("application/epub+zip", ["epub"]),
  ("application/ecmascript", ["ecma", "es"]),
  ("application/hta", ["hta"]),
  ("application/mac-binhex40", ["hqx"]),
  ("application/mathematica", ["nb", "ma", "mb"]),
  ("application/mp4", ["mp4s"]),
  ("application/oda", ["oda"]),
  ("application/olescript", ["axs"]),
  ("application/rdf+xml", ["rdf", "owl"]),
  ("application/set-payment-initiation", ["setpay"]),
  ("application/set-registration-initiation", ["setreg"]),
  ("application/vnd.apple.mpegurl", ["m3u8"]),
  ("application/vnd.chipnuts.karaoke-mmd", ["mmd"]),
  ("application/vnd.google-earth.kml+xml", ["kml"]),
  ("application/vnd.google-earth.kmz", ["kmz"]),
  ("application/vnd.mozilla.xul+xml", ["xul"]),
  ("application/vnd.ms-fontobject", ["eot"]),
  ("application/vnd.ms-excel", ["xls", "xla", "xlc", "xld", "xlk", "xll", "xlm", "xlt", "xlw", "slk"]),
  ("application/vnd.ms-excel.sheet.macroEnabled.12", ["xlsm"]),
  ("application/vnd.ms-excel.sheet.binary.macroEnabled.12", ["xlsb"]),
  ("application/vnd.ms-outlook", ["msg"]),
  ("application/vnd.ms-powerpoint", ["ppt", "pot", "ppa", "pps", "pwz"]),
  ("application/vnd.ms-powerpoint.presentation.macroEnabled.12", ["pptm"]),
  ("application/vnd.ms-project", ["mpp"]),
  ("application/vnd.ms-word.document.macroEnabled.12", ["docm"]),
  ("application/vnd.ms-works", ["wcm", "wdb", "wks", "wps"]),
  ("application/vnd.ms-xpsdocument", ["xps"]),
  ("application/msword", ["doc", "dot", "wbk", "wiz"]),
  ("application/msaccess", ["accdb", "accde", "accdt", "ade", "adp", "mda", "mde"]),
  ("application/x-msaccess", ["mdb"]),
  ("application/onenote", ["onepkg", "onetmp", "onetoc", "onetoc2", "onea", "one"]),
  ("application/vnd.oasis.opendocument.chart", ["odc"]),
  ("application/vnd.oasis.opendocument.formula", ["odf"]),
  ("application/vnd.oasis.opendocument.graphics", ["odg"]),
  ("application/vnd.oasis.opendocument.image", ["odi"]),
  ("application/vnd.oasis.opendocument.presentation", ["odp"]),
  ("application/vnd.oasis.opendocument.spreadsheet", ["ods"]),
  ("application/vnd.oasis.opendocument.text", ["odt"]),
  ("application/vnd.openxmlformats-officedocument.presentationml.presentation", ["pptx"]),
  ("application/vnd.openxmlformats-officedocument.presentationml.slideshow", ["ppsx"]),
  ("application/vnd.openxmlformats-officedocument.presentationml.template", ["potx"]),
  ("application/vnd.openxmlformats-officedocument.spreadsheetml.sheet", ["xlsx"]),
  ("application/vnd.openxmlformats-officedocument.spreadsheetml.template", ["xltx"]),
  ("application/vnd.openxmlformats-officedocument.wordprocessingml.document", ["docx"]),
  ("application/vnd.openxmlformats-officedocument.wordprocessingml.template", ["dotx"]),
  ("application/vnd.visio", ["vsd", "vdx", "vss", "vst", "vsw", "vsx", "vtx"]),
  ("application/winhlp", ["hlp"]),
  ("audio/mpeg", ["mp3"]),
  ("audio/wav", ["wav", "wave"]),
  ("audio/ogg", ["ogg", "oga", "opus", "spx"]),
  ("audio/flac", ["flac"]),
  ("audio/aac", ["aac", "adts"]),
  ("audio/ac3", ["ac3"]),
  ("audio/aiff", ["aif", "aiff", "aifc", "cdda"]),
  ("audio/basic", ["au", "snd"]),
  ("audio/m4a", ["m4a"]),
  ("audio/m4b", ["m4b"]),
  ("audio/m4p", ["m4p"]),
  ("audio/mid", ["mid", "midi", "rmi"]),
  ("audio/webm", ["weba"]),
  ("audio/x-mpegurl", ["m3u"]),
  ("audio/x-ms-wma", ["wma"]),
  ("audio/x-pn-realaudio", ["ra", "ram"]),
  ("font/otf", ["otf"]),
  ("font/ttf", ["ttf"]),
  ("font/woff", ["woff"]),
  ("font/woff2", ["woff2"]),
  ("message/rfc822", ["eml", "mht", "mhtml", "nws"]),
  ("model/gltf+json", ["gltf"]),
  ("model/gltf-binary", ["glb"]),
  ("video/3gpp", ["3gp", "3gpp"]),
  ("video/3gpp2", ["3g2", "3gp2"]),
  ("video/mp4", ["mp4", "mp4v"]),
  ("video/mpeg", ["mpeg", "mpg", "mpe", "mpa", "mp2", "mp2v", "mpv2", "m1v"]),
  ("video/ogg", ["ogv"]),
  ("video/quicktime", ["mov", "qt", "mqv"]),
  ("video/vnd.dlna.mpeg-tts", ["ts", "tts", "m2t", "m2ts", "mts"]),
  ("video/webm", ["webm"]),
  ("video/x-flv", ["flv"]),
  ("video/x-ivf", ["ivf"]),
  ("video/x-m4v", ["m4v"]),
  ("video/x-matroska", ["mkv"]),
  ("video/x-ms-asf", ["asf", "asr", "asx", "nsc"]),
  ("video/x-ms-wmv", ["wmv"]),
  ("video/x-msvideo", ["avi"]),
  ("video/x-sgi-movie", ["movie"])]

def unknown : String := "application/octet-stream"

/-- The part of a name after its last point, unless the name starts there. -/
def extension? (name : String) : Option String :=
  match splitLast? (· == '.') name.toList with
  | some (_ :: _, ending) => some (String.ofList ending)
  | _ => none

def ofName (name : String) : String :=
  match extension? name with
  | none => unknown
  | some ending =>
    match table.find? fun row => row.2.contains (lowerCase ending) with
    | some row => row.1
    | none => unknown

end DiagramShare.Http.FileType
