set_option autoImplicit false

namespace GolombSet.Command

inductive Topic where
  | commands
  | build
  | query
  | help
deriving DecidableEq

namespace Topic

def lines : Topic → List String
  | commands => [
    "Builds and queries Golomb-coded set filters",
    "",
    "Usage: gcs <COMMAND>",
    "",
    "Commands:",
    "  build  Builds a filter from a file of items, one per line, and optionally stores it",
    "  query  Loads a filter and queries it",
    "  help   Print this message or the help of the given subcommand(s)",
    "",
    "Options:",
    "  -h, --help  Print help"]
  | build => [
    "Builds a filter from a file of items, one per line, and optionally stores it",
    "",
    "Usage: gcs build [OPTIONS] <ITEMS> [OUTPUT]",
    "",
    "Arguments:",
    "  <ITEMS>   A file containing items, one per line; it can be compressed with " ++
      "gzip (.gz) or Zstandard (.zst)",
    "  [OUTPUT]  An optional name for the serialized filter",
    "",
    "Options:",
    "  -k, --key <KEY>                The key as 32 hexadecimal digits; if neither a key nor " ++
      "a block hash is given, a random key is used",
    "  -b, --block-hash <BLOCK_HASH>  Derive the key from this block hash " ++
      "(64 hexadecimal digits, block explorer order)",
    "  -p <P>                         The Rice parameter [default: 19]",
    "  -w, --wire                     Store the filter in wire format (compact-size count " ++
      "followed by the Rice-coded data) instead of ε-serde format",
    "  -h, --help                     Print help"]
  | query => [
    "Loads a filter and queries it",
    "",
    "Usage: gcs query [OPTIONS] --key <KEY> <FILTER> [ITEMS]...",
    "",
    "Arguments:",
    "  <FILTER>    The serialized filter",
    "  [ITEMS]...  The items to look for",
    "",
    "Options:",
    "  -k, --key <KEY>  The key used to build the filter, as 32 hexadecimal digits",
    "  -w, --wire       The filter is in wire format",
    "  -p <P>           The Rice parameter of a wire-format filter",
    "  -h, --help       Print help"]
  | help => [
    "Print this message or the help of the given subcommand(s)",
    "",
    "Usage: gcs help [COMMAND]...",
    "",
    "Arguments:",
    "  [COMMAND]...  Print help for the subcommand(s)"]

def text (topic : Topic) : String :=
  String.join (topic.lines.map (· ++ "\n"))

end Topic

end GolombSet.Command
