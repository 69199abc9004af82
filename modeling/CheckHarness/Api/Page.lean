import CheckHarness.Html.Escape
import CheckHarness.Text.Replace

namespace CheckHarness.Page

/-- What stands for the name of the service. -/
def placeholder : String :=
  "\x7b\x7bservice\x7d\x7d"

/-- The lines of the start page, a form for sending single tasks by hand. The name of the service
appears in the title and in the heading, where the template has a placeholder. -/
def template : List String :=
  ["<!DOCTYPE html>",
    "<html lang=\"en\">",
    "<head>",
    "    <meta charset=\"UTF-8\">",
    "    <title>\x7b\x7bservice\x7d\x7d checker</title>",
    "    <style>",
    "        body \x7b font-family: system-ui, sans-serif; max-width: 720px; margin: 40px auto; \x7d",
    "        label \x7b display: block; margin-top: 8px; \x7d",
    "        input, select \x7b width: 100%; padding: 4px; \x7d",
    "        pre \x7b background: #f4f4f4; padding: 12px; \x7d",
    "    </style>",
    "</head>",
    "<body>",
    "    <h1>\x7b\x7bservice\x7d\x7d checker</h1>",
    "    <form id=\"task\">",
    "        <label>Method",
    "            <select name=\"method\">",
    "                <option>putflag</option><option>getflag</option>",
    "                <option>putnoise</option><option>getnoise</option>",
    "                <option>havoc</option>",
    "            </select>",
    "        </label>",
    "        <label>Address <input name=\"address\" value=\"localhost\"></label>",
    "        <label>Flag <input name=\"flag\" value=\"ENOFLAG\"></label>",
    "        <label>Team id <input name=\"teamId\" type=\"number\" value=\"1\"></label>",
    "        <label>Related round <input name=\"relatedRoundId\" type=\"number\" value=\"1\"></label>",
    "        <label>Current round <input name=\"currentRoundId\" type=\"number\" value=\"1\"></label>",
    "        <label>Variant <input name=\"variantId\" type=\"number\" value=\"0\"></label>",
    "        <label>Timeout (ms) <input name=\"timeout\" type=\"number\" value=\"10000\"></label>",
    "        <button type=\"submit\">Run</button>",
    "    </form>",
    "    <pre id=\"result\"></pre>",
    "    <script>",
    "        const kinds = \x7b putflag: \"flag\", getflag: \"flag\", putnoise: \"noise\", getnoise: \"noise\", havoc: \"havoc\" \x7d;",
    "        document.getElementById(\"task\").addEventListener(\"submit\", async (ev) => \x7b",
    "            ev.preventDefault();",
    "            const f = new FormData(ev.target);",
    "            const n = (k) => Number(f.get(k));",
    "            const method = f.get(\"method\");",
    "            const task = \x7b",
    "                taskId: Date.now() % 1000000, method, address: f.get(\"address\"),",
    "                teamId: n(\"teamId\"), teamName: \"manual\", currentRoundId: n(\"currentRoundId\"),",
    "                relatedRoundId: n(\"relatedRoundId\"), flag: f.get(\"flag\") || null,",
    "                variantId: n(\"variantId\"), timeout: n(\"timeout\"), roundLength: 60000,",
    "                taskChainId: `$\x7bkinds[method]\x7d_s0_r$\x7bn(\"relatedRoundId\")\x7d_t$\x7bn(\"teamId\")\x7d_i$\x7bn(\"variantId\")\x7d`,",
    "            \x7d;",
    "            const res = await fetch(\"/\", \x7b method: \"POST\", headers: \x7b \"Content-Type\": \"application/json\" \x7d, body: JSON.stringify(task) \x7d);",
    "            document.getElementById(\"result\").textContent = JSON.stringify(await res.json(), null, 2);",
    "        \x7d);",
    "    </script>",
    "</body>",
    "</html>",
    ""]

/-- The page for a service of the given name. -/
def render (serviceName : String) : String :=
  String.ofList (Text.replaceAll placeholder.toList (Html.escapeChars serviceName.toList)
    ("\n".intercalate template).toList)

end CheckHarness.Page
