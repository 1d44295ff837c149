import Callsite.Text.Basic

/-!
# Help

What the program says about its options.
-/

namespace Callsite.CommandLine

def programName : Text := "libusage"
def version : Text := "0.1.0"

def usageLines : List Text :=
  ["usage: libusage [-h] [-a APPLICATION | -d DIRECTORY] [-p PACKAGE] [-o OUTPUT]",
    "                [--format \x7blog,csv\x7d] [--mode \x7bordered,unordered\x7d] [--fields]",
    "                [--ext EXTENSIONS] [--config CONFIG] [--info] [--debug]"]

def optionLines : List Text :=
  ["  -h, --help            show this help message and exit",
    "  -a APPLICATION, --application APPLICATION",
    "                        the application to be checked (.jar or .class)",
    "  -d DIRECTORY, --directory DIRECTORY",
    "                        the directory containing the applications to be",
    "                        checked",
    "  -p PACKAGE, --package PACKAGE",
    "                        the package of the method calls we want to check",
    "  -o OUTPUT, --output OUTPUT",
    "                        the directory where the output will be dumped",
    "  --format \x7blog,csv\x7d    report file format",
    "  --mode \x7bordered,unordered\x7d",
    "                        ordered by caller class, or legacy unique set",
    "  --fields              also report field reads and writes",
    "  --ext EXTENSIONS      archive extension considered in directory mode",
    "                        (repeatable)",
    "  --config CONFIG       JSON file with default options",
    "  --info                Print analyzer info and exit",
    "  --debug               Enable debug logging"]

def purposeLines : List Text :=
  ["", "Find the methods of compiled archives that call into a package", "", "options:"]

def helpLines : List Text := usageLines ++ purposeLines ++ optionLines

def infoLines (platform : Text) : List Text :=
  ["Library Usage Detector", version, "static,bytecode", platform]

end Callsite.CommandLine
